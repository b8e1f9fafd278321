import Mathlib.Data.List.Nodup
import DomProtocol.Crypto.Primitives

/-!
# `Wallet.Store` — the output store of the wallet and the status machine of an output

One record per owned output.  The store has no two records with one commitment, and its only deletion is guarded by the
status of the output.
-/

namespace DomProtocol.Wallet

open Lib

variable {f : StoredOutput → StoredOutput}

/-! ## Records -/

inductive OutputOrigin where
  | Coinbase
  | Change
  | ReceiveSlate
  deriving DecidableEq, Repr

inductive OutputStatus where
  | Unconfirmed
  | Confirmed
  | Spent
  | Reorged
  deriving DecidableEq, Repr

structure BlockRef where
  height : Nat
  hash : Hash256
  deriving DecidableEq, Repr

structure StoredOutput where
  commitment : Commitment
  value : Nat
  blinding : BitVec 256
  origin : OutputOrigin
  status : OutputStatus
  originBlock : Option BlockRef
  isCoinbase : Bool
  /-- The slate that reserved this output as an input. -/
  reservedFor : Option Hash256
  /-- The payout this output is pinned to. -/
  payoutFor : Option Hash256
  createdAt : Nat
  updatedAt : Nat
  deriving DecidableEq, Repr

def StoredOutput.newUnconfirmed (commitment : Commitment) (value : Nat) (blinding : BitVec 256) (origin : OutputOrigin)
    (isCoinbase : Bool) (now : Nat) : StoredOutput where
  commitment := commitment
  value := value
  blinding := blinding
  origin := origin
  status := .Unconfirmed
  originBlock := none
  isCoinbase := isCoinbase
  reservedFor := none
  payoutFor := none
  createdAt := now
  updatedAt := now

/-! ## The status machine -/

structure TransitionError where
  source : OutputStatus
  target : OutputStatus
  deriving DecidableEq, Repr

def OutputStatus.canTransitionTo : OutputStatus → OutputStatus → Bool
  | Unconfirmed, Confirmed | Spent, Confirmed | Reorged, Confirmed => true
  | Confirmed, Spent | Reorged, Spent => true
  | Confirmed, Reorged | Spent, Reorged => true
  | _, _ => false

namespace StoredOutput

variable (out : StoredOutput)

def setStatus (target : OutputStatus) (now : Nat) : Except TransitionError StoredOutput := do
  rejectIf (out.status.canTransitionTo target = false) ⟨out.status, target⟩
  return { out with status := target, updatedAt := now }

def confirm (block : BlockRef) (now : Nat) : Except TransitionError StoredOutput := do
  let out ← out.setStatus .Confirmed now
  return { out with originBlock := some block }

def markSpent (now : Nat) : Except TransitionError StoredOutput := out.setStatus .Spent now

def markReorged (now : Nat) : Except TransitionError StoredOutput := out.setStatus .Reorged now

def isReserved : Bool := out.reservedFor.isSome

def reserve (slateHash : Hash256) (now : Nat) : StoredOutput :=
  { out with reservedFor := some slateHash, updatedAt := now }

def releaseReservation (now : Nat) : StoredOutput :=
  { out with reservedFor := none, updatedAt := now }

/-- Only an output that was never canonical and is not pinned may be deleted. -/
def canDelete : Bool := out.status = .Unconfirmed ∧ out.payoutFor = none

end StoredOutput

/-! ## The store -/

inductive StoreError where
  | DuplicateCommitment
  | DuplicatePayoutPin
  | NotFound
  | NotDeletable
  deriving DecidableEq, Repr

structure OutputStore where
  outputs : List StoredOutput
  nodup : (outputs.map StoredOutput.commitment).Nodup

namespace OutputStore

variable {s : OutputStore}

@[ext] theorem ext {s' : OutputStore} (h : s.outputs = s'.outputs) : s = s' := by
  cases s
  cases s'
  cases h
  rfl

def empty : OutputStore := ⟨[], List.nodup_nil⟩

def get (s : OutputStore) (c : Commitment) : Option StoredOutput := s.outputs.find? (·.commitment = c)

variable {c : Commitment}

theorem get_eq_some {out : StoredOutput} : s.get c = some out ↔ out ∈ s.outputs ∧ out.commitment = c := by
  unfold get
  constructor
  · intro h
    exact ⟨List.mem_of_find?_eq_some h, by simpa using List.find?_some h⟩
  · rintro ⟨hmem, rfl⟩
    cases hfind : s.outputs.find? (·.commitment = out.commitment) with
    | none =>
      have hnone := List.find?_eq_none.mp hfind out hmem
      exact absurd (decide_eq_true rfl) hnone
    | some other =>
      -- two records with one commitment are one record
      have hoth : other ∈ s.outputs := List.mem_of_find?_eq_some hfind
      have hsame : other.commitment = out.commitment := by simpa using List.find?_some hfind
      rw [List.inj_on_of_nodup_map s.nodup hoth hmem hsame]

theorem get_eq_none : s.get c = none ↔ ∀ out ∈ s.outputs, out.commitment ≠ c := by
  unfold get
  rw [List.find?_eq_none]
  simp only [decide_eq_true_eq, ne_eq]

theorem notMem_of_get_eq_none (h : s.get c = none) : c ∉ s.outputs.map StoredOutput.commitment := by
  intro hmem
  obtain ⟨out, hout, rfl⟩ := List.mem_map.mp hmem
  exact get_eq_none.mp h out hout rfl

theorem nodup_push {out : StoredOutput} (h : s.get out.commitment = none) :
    ((s.outputs ++ [out]).map StoredOutput.commitment).Nodup := by
  rw [List.map_append]
  refine List.Nodup.append s.nodup (List.nodup_singleton _) ?_
  exact List.disjoint_singleton.mpr (notMem_of_get_eq_none h)

def insert (s : OutputStore) (out : StoredOutput) : Except StoreError OutputStore :=
  if h : s.get out.commitment = none then
    if out.payoutFor.isSome ∧ s.outputs.any (·.payoutFor = out.payoutFor) then .error .DuplicatePayoutPin
    else .ok ⟨s.outputs ++ [out], nodup_push h⟩
  else .error .DuplicateCommitment

theorem nodup_map (h : ∀ out, (f out).commitment = out.commitment) :
    ((s.outputs.map f).map StoredOutput.commitment).Nodup := by
  have hsame : (s.outputs.map f).map StoredOutput.commitment = s.outputs.map StoredOutput.commitment := by
    rw [List.map_map]
    exact List.map_congr_left fun out _ => h out
  rw [hsame]
  exact s.nodup

/-- Change every record, none of them in its commitment. -/
def map (s : OutputStore) (f : StoredOutput → StoredOutput) (h : ∀ out, (f out).commitment = out.commitment) : OutputStore :=
  ⟨s.outputs.map f, nodup_map h⟩

theorem commitment_ite (h : ∀ out, (f out).commitment = out.commitment) (out : StoredOutput) :
    (if out.commitment = c then f out else out).commitment = out.commitment := by
  split
  · exact h out
  · rfl

def modify (s : OutputStore) (c : Commitment) (f : StoredOutput → StoredOutput)
    (h : ∀ out, (f out).commitment = out.commitment) : OutputStore :=
  s.map (fun out => if out.commitment = c then f out else out) (commitment_ite h)

def reserve (s : OutputStore) (slateHash : Hash256) (now : Nat) (c : Commitment) : OutputStore :=
  s.modify c (·.reserve slateHash now) fun _ => rfl

def releaseReservation (s : OutputStore) (now : Nat) (c : Commitment) : OutputStore :=
  s.modify c (·.releaseReservation now) fun _ => rfl

theorem nodup_erase (s : OutputStore) (c : Commitment) :
    ((s.outputs.filter (·.commitment ≠ c)).map StoredOutput.commitment).Nodup :=
  s.nodup.sublist (List.filter_sublist.map _)

def erase (s : OutputStore) (c : Commitment) : OutputStore := ⟨s.outputs.filter (·.commitment ≠ c), nodup_erase s c⟩

def removeIfDeletable (s : OutputStore) (c : Commitment) : Except StoreError OutputStore := do
  let out ← okOr (s.get c) .NotFound
  rejectIf (out.canDelete = false) .NotDeletable
  return s.erase c

/-! ## Reading after writing -/

variable {s s' : OutputStore} {c : Commitment} {out : StoredOutput}

theorem insert_eq_ok : s.insert out = .ok s' ↔ s.get out.commitment = none ∧
    ¬ (out.payoutFor.isSome ∧ s.outputs.any (·.payoutFor = out.payoutFor)) ∧ s'.outputs = s.outputs ++ [out] := by
  unfold insert
  by_cases hnew : s.get out.commitment = none
  · rw [dif_pos hnew]
    by_cases hpin : out.payoutFor.isSome ∧ s.outputs.any (·.payoutFor = out.payoutFor)
    · rw [if_pos hpin]
      exact ⟨fun h => (by cases h), fun h => absurd hpin h.2.1⟩
    · rw [if_neg hpin, Except.ok.injEq]
      constructor
      · rintro rfl
        exact ⟨hnew, hpin, rfl⟩
      · rintro ⟨-, -, houts⟩
        exact OutputStore.ext houts.symm
  · rw [dif_neg hnew]
    exact ⟨fun h => (by cases h), fun h => absurd h.1 hnew⟩

theorem get_push (hnew : s.get out.commitment = none) (h : s'.outputs = s.outputs ++ [out]) (c : Commitment) :
    s'.get c = if c = out.commitment then some out else s.get c := by
  unfold get
  rw [h, List.find?_append]
  by_cases hc : c = out.commitment
  · subst hc
    have hnone : s.outputs.find? (·.commitment = out.commitment) = none := hnew
    simp only [hnone, Option.none_or, List.find?_cons, decide_true, if_true]
  · have hlast : [out].find? (·.commitment = c) = none := by
      simp only [List.find?_cons, decide_eq_false (Ne.symm hc), List.find?_nil]
    rw [if_neg hc, hlast, Option.or_none]

theorem get_map (f : StoredOutput → StoredOutput) (h : ∀ out, (f out).commitment = out.commitment) (c : Commitment) :
    (s.map f h).get c = (s.get c).map f := by
  unfold get map
  rw [List.find?_map]
  have hsame : (fun out => decide ((f out).commitment = c)) = fun out : StoredOutput => decide (out.commitment = c) := by
    funext out
    rw [h out]
  show Option.map f (s.outputs.find? (fun out => decide ((f out).commitment = c))) = _
  rw [hsame]

theorem get_modify (f : StoredOutput → StoredOutput) (h : ∀ out, (f out).commitment = out.commitment) (c c' : Commitment) :
    (s.modify c f h).get c' = if c' = c then (s.get c').map f else s.get c' := by
  unfold modify
  rw [get_map]
  cases hget : s.get c' with
  | none => simp only [Option.map_none, ite_self]
  | some out =>
    obtain ⟨-, rfl⟩ := get_eq_some.mp hget
    by_cases hc : out.commitment = c
    · simp only [Option.map_some, if_pos hc]
    · simp only [Option.map_some, if_neg hc]

theorem get_erase (c c' : Commitment) : (s.erase c).get c' = if c' = c then none else s.get c' := by
  by_cases hc : c' = c
  · rw [if_pos hc, get_eq_none]
    intro out hmem
    obtain ⟨-, hne⟩ := List.mem_filter.mp hmem
    rw [hc]
    exact of_decide_eq_true hne
  · rw [if_neg hc]
    cases hget : s.get c' with
    | none =>
      rw [get_eq_none] at hget ⊢
      exact fun out hmem => hget out (List.mem_of_mem_filter hmem)
    | some out =>
      obtain ⟨hmem, rfl⟩ := get_eq_some.mp hget
      exact get_eq_some.mpr ⟨List.mem_filter.mpr ⟨hmem, decide_eq_true hc⟩, rfl⟩

end OutputStore

end DomProtocol.Wallet
