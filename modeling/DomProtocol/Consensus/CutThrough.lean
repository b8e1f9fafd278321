import DomProtocol.Consensus.Transaction
import Mathlib.Algebra.BigOperators.Group.List.Basic

/-!
# `Consensus.CutThrough` — merging transactions

An output and the input that spends it are removed together; the kernels are left to the caller.
-/

namespace DomProtocol

open Lib

def allInputs (transactions : List Transaction) : List Commitment := transactions.flatMap (·.inputs)

def allOutputs (transactions : List Transaction) : List TransactionOutput := transactions.flatMap (·.outputs)

def applyCutThrough (transactions : List Transaction) : Except DomError (List Commitment × List TransactionOutput) := do
  let inputs := allInputs transactions
  let outputs := allOutputs transactions
  rejectIf (¬ inputs.Nodup) (.invalid "duplicate input before cut-through")
  rejectIf (¬ (outputs.map (·.commitment)).Nodup) (.invalid "duplicate output before cut-through")
  let eliminated := inputs.filter (· ∈ outputs.map (·.commitment))
  let outputsAfter : List TransactionOutput := outputs.filter (·.commitment ∉ eliminated)
  let inputsAfter : List Commitment := inputs.filter (· ∉ eliminated)
  rejectIf (¬ inputsAfter.Nodup) (.invalid "duplicate input after cut-through")
  rejectIf (¬ (outputsAfter.map TransactionOutput.commitment).Nodup) (.invalid "duplicate output after cut-through")
  return (inputsAfter, outputsAfter)

/-- What is left of inputs and outputs: those whose commitment is not on the other side. -/
def unmatched (inputs : List Commitment) (outputs : List TransactionOutput) : List Commitment × List TransactionOutput :=
  (inputs.filter (· ∉ outputs.map (·.commitment)), outputs.filter (·.commitment ∉ inputs))

/-- **Cut-through.**  The checks after the removal never fail. -/
theorem applyCutThrough_eq_ok {txs : List Transaction} {r : List Commitment × List TransactionOutput} :
    applyCutThrough txs = .ok r ↔ (allInputs txs).Nodup ∧ ((allOutputs txs).map (·.commitment)).Nodup ∧
      r = unmatched (allInputs txs) (allOutputs txs) := by
  unfold applyCutThrough
  generalize allInputs txs = inputs, allOutputs txs = outputs
  -- an eliminated commitment is on both sides, so it is enough to look at the other one
  have hins : inputs.filter (· ∉ inputs.filter (· ∈ outputs.map (·.commitment))) = (unmatched inputs outputs).1 := by
    apply List.filter_congr
    intro c hc
    simp [hc]
  have houts : outputs.filter (·.commitment ∉ inputs.filter (· ∈ outputs.map (·.commitment))) =
      (unmatched inputs outputs).2 := by
    apply List.filter_congr
    intro o ho
    have hmem : o.commitment ∈ outputs.map (·.commitment) := List.mem_map_of_mem ho
    simp only [List.mem_filter, hmem, decide_true, and_true]
  simp only [hins, houts, inversion, Decidable.not_not]
  constructor
  · rintro ⟨hin, hout, -, -, rfl⟩
    exact ⟨hin, hout, rfl⟩
  · rintro ⟨hin, hout, rfl⟩
    exact ⟨hin, hout, hin.filter _, hout.sublist (List.filter_sublist.map _), rfl⟩

section Balance

variable {inputs : List Commitment} {outputs : List TransactionOutput} (hin : inputs.Nodup)
  (hout : (outputs.map (·.commitment)).Nodup)
include hin hout

/-- The pairs that are removed: the same commitments on both sides. -/
theorem matched_perm : ((outputs.filter (·.commitment ∈ inputs)).map (·.commitment)).Perm
    (inputs.filter (· ∈ outputs.map (·.commitment))) := by
  refine (List.perm_ext_iff_of_nodup (hout.sublist (List.filter_sublist.map _)) (hin.filter _)).mpr fun c => ?_
  simp only [List.mem_map, List.mem_filter, decide_eq_true_eq]
  constructor
  · rintro ⟨o, ⟨ho, hc⟩, rfl⟩
    exact ⟨hc, o, ho, rfl⟩
  · rintro ⟨hc, o, ho, rfl⟩
    exact ⟨o, ⟨ho, hc⟩, rfl⟩

omit hin hout in
theorem sum_filter_add {α : Type} {G : Type*} [AddCommGroup G] (f : α → G) (p : α → Bool) (l : List α) :
    ((l.filter p).map f).sum + ((l.filter fun a => !p a).map f).sum = (l.map f).sum := by
  rw [← List.sum_append, ← List.map_append]
  exact ((List.filter_append_perm p l).map f).sum_eq

/-- **Balance.** -/
theorem balance_unmatched {G : Type*} [AddCommGroup G] (f : Commitment → G) :
    ((unmatched inputs outputs).2.map (f ·.commitment)).sum - ((unmatched inputs outputs).1.map f).sum =
      (outputs.map (f ·.commitment)).sum - (inputs.map f).sum := by
  have hpairs := ((matched_perm hin hout).map f).sum_eq
  have houts := sum_filter_add (f ·.commitment) (·.commitment ∈ inputs) outputs
  have hins := sum_filter_add f (· ∈ outputs.map (·.commitment)) inputs
  simp only [← decide_not] at houts hins
  rw [List.map_map] at hpairs
  rw [← houts, ← hins, ← hpairs]
  exact (add_sub_add_left_eq_sub _ _ _).symm

end Balance

/-- **Cut-through of any list of transactions.** -/
theorem cutThrough_canonical {G : Type*} [AddCommGroup G] (f : Commitment → G) (txs : List Transaction) :
    ((∃ r, applyCutThrough txs = .ok r) ↔ (allInputs txs).Nodup ∧ ((allOutputs txs).map (·.commitment)).Nodup) ∧
    ∀ r, applyCutThrough txs = .ok r →
      r = unmatched (allInputs txs) (allOutputs txs) ∧ (∀ o ∈ r.2, o.commitment ∉ r.1) ∧
      (r.2.map (f ·.commitment)).sum - (r.1.map f).sum =
        ((allOutputs txs).map (f ·.commitment)).sum - ((allInputs txs).map f).sum ∧
      ∀ txs', txs.Perm txs' → ∃ r', applyCutThrough txs' = .ok r' ∧ r.1.Perm r'.1 ∧ r.2.Perm r'.2 := by
  refine ⟨⟨?_, ?_⟩, fun r hr => ?_⟩
  · rintro ⟨r, hr⟩
    obtain ⟨hin, hout, -⟩ := applyCutThrough_eq_ok.mp hr
    exact ⟨hin, hout⟩
  · rintro ⟨hin, hout⟩
    exact ⟨_, applyCutThrough_eq_ok.mpr ⟨hin, hout, rfl⟩⟩
  · obtain ⟨hin, hout, rfl⟩ := applyCutThrough_eq_ok.mp hr
    refine ⟨rfl, ?_, balance_unmatched hin hout f, fun txs' hperm => ?_⟩
    · intro o ho hc
      exact (of_decide_eq_true (List.mem_filter.mp ho).2) (List.mem_filter.mp hc).1
    · have hins : (allInputs txs).Perm (allInputs txs') := hperm.flatMap_right _
      have houts : (allOutputs txs).Perm (allOutputs txs') := hperm.flatMap_right _
      refine ⟨_, applyCutThrough_eq_ok.mpr ⟨hins.nodup hin, (houts.map _).nodup hout, rfl⟩, ?_, ?_⟩
      · simpa [unmatched, houts.mem_iff] using hins.filter (· ∉ (allOutputs txs).map (·.commitment))
      · simpa [unmatched, hins.mem_iff] using houts.filter (·.commitment ∉ allInputs txs)

end DomProtocol
