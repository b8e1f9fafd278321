import DomProtocol.Wallet.Payment

/-!
# `Wallet.Sync` — one reconciliation cycle, and the short cut when the tip is not higher

A full pass reads the tip, scans the chain up to it and reconciles.  The short cut compares two heights, so it takes a chain
whose tip is not above the last reconciled one for the chain it was reconciled against.
-/

namespace DomProtocol.Wallet

open Lib

variable {E : Type}

structure ChainSource (E : Type) where
  tip : Except E BlockRef
  scanRange : Nat → Nat → Except E (List ScanBlock)

inductive SyncError (E : Type) where
  | Source (e : E)
  /-- The thread aborts. -/
  | panicked (e : TransitionError)

def sync (store : OutputStore) (source : ChainSource E) (start now : Nat) :
    Except (SyncError E) (ReconcileReport × OutputStore) := do
  let tip ← source.tip.mapError .Source
  let blocks ← (source.scanRange start tip.height).mapError .Source
  (reconcile store (.fromBlocks blocks) now).mapError .panicked

/-- The view has no other status for an output. -/
def Stands (view : CanonicalView) (out : StoredOutput) : Prop :=
  match out.status with
  | .Unconfirmed => view.outputBlock out.commitment = none ∨ view.isSpent out.commitment
  | .Confirmed => view.outputBlock out.commitment ≠ none ∧ view.isSpent out.commitment = false
  | .Spent => view.isSpent out.commitment
  | .Reorged => view.outputBlock out.commitment = none ∧ view.isSpent out.commitment = false

theorem status_reconciled_iff (view : CanonicalView) (now : Nat) (out : StoredOutput) :
    (reconciled view now out).status = out.status ↔ Stands view out := by
  unfold reconciled Stands
  cases hstat : out.status <;> cases view.outputBlock out.commitment <;> cases view.isSpent out.commitment <;> simp [hstat]

namespace WalletV2State

def sync (state : WalletV2State) (source : ChainSource E) (start now : Nat) :
    Except (SyncError E) (ReconcileReport × WalletV2State) := do
  let (report, outputs) ← Wallet.sync state.outputs source start now
  let storeMeta := match report.tip with
    | some tip => ⟨tip.height, some tip.hash⟩
    | none => state.storeMeta
  return (report, { state with outputs, storeMeta })

def syncIfBehind (state : WalletV2State) (source : ChainSource E) (staleThreshold now : Nat) :
    Except (SyncError E) (Option ReconcileReport × WalletV2State) := do
  let tip ← source.tip.mapError .Source
  if staleThreshold ≤ tip.height - state.storeMeta.lastReconciledTip then
    let (report, state) ← state.sync source 0 now
    return (some report, state)
  else return (none, state)

def statuses (state : WalletV2State) : List OutputStatus := state.outputs.outputs.map (·.status)

/-- The statuses are those of a full pass over the chain of the source. -/
def UpToDate (state : WalletV2State) (source : ChainSource E) (now : Nat) (after : WalletV2State) : Prop :=
  ∀ report full, state.sync source 0 now = .ok (report, full) → after.statuses = full.statuses

variable {state after : WalletV2State} {source : ChainSource E} {now : Nat}

theorem outputs_of_sync {report : ReconcileReport} (h : state.sync source 0 now = .ok (report, after)) :
    ∃ tip blocks, source.tip = .ok tip ∧ source.scanRange 0 tip.height = .ok blocks ∧
      after.outputs = state.outputs.reconciled (.fromBlocks blocks) now := by
  simp only [sync, Wallet.sync, inversion, Prod.exists] at h
  obtain ⟨_, outputs, ⟨tip, htip, blocks, hblks, hrun⟩, heq⟩ := h
  cases heq
  exact ⟨tip, blocks, htip, hblks, reconcile_eq_ok hrun⟩

/-- Leaving the state as it is is right when the chain says nothing new. -/
theorem upToDate_self_iff : UpToDate state source now state ↔ ∀ tip blocks, source.tip = .ok tip →
    source.scanRange 0 tip.height = .ok blocks → ∀ out ∈ state.outputs.outputs, Stands (.fromBlocks blocks) out := by
  have hstands (blocks : List ScanBlock) :
      state.statuses = (state.outputs.reconciled (.fromBlocks blocks) now).outputs.map (·.status) ↔
        ∀ out ∈ state.outputs.outputs, Stands (.fromBlocks blocks) out := by
    simp only [statuses, OutputStore.reconciled, OutputStore.map, List.map_map, List.map_inj_left, Function.comp_apply,
      ← status_reconciled_iff _ now, eq_comm]
  constructor
  · intro hcurrent tip blocks htip hblks
    obtain ⟨report, hrun⟩ := exists_report state.outputs (.fromBlocks blocks) now
    simp only [UpToDate, sync, Wallet.sync, htip, hblks, hrun, Except.mapError, ok_bind] at hcurrent
    exact (hstands blocks).mp (hcurrent _ _ rfl)
  · intro hall report full hfull
    obtain ⟨tip, blocks, htip, hblks, houts⟩ := outputs_of_sync hfull
    rw [statuses.eq_1 full, houts, hstands]
    exact hall tip blocks htip hblks

/-- **The short cut is sound** exactly when the tip is above the last reconciled one or the chain says nothing new. -/
theorem upToDate_iff {report : Option ReconcileReport} (h : state.syncIfBehind source 1 now = .ok (report, after)) :
    UpToDate state source now after ↔ ∀ tip blocks, source.tip = .ok tip → source.scanRange 0 tip.height = .ok blocks →
      state.storeMeta.lastReconciledTip < tip.height ∨ ∀ out ∈ state.outputs.outputs, Stands (.fromBlocks blocks) out := by
  simp only [syncIfBehind, inversion] at h
  obtain ⟨tip, htip, h⟩ := h
  split at h
  · -- a full pass was made
    rename_i hbehind
    simp only [inversion, Prod.exists] at h
    obtain ⟨_, full, hsync, heq⟩ := h
    cases heq
    constructor
    · intro _ tip' _ htip' _
      obtain rfl := Except.ok.inj (htip.symm.trans htip')
      exact .inl (by omega)
    · intro _ report' full' hfull
      obtain ⟨-, rfl⟩ := Prod.mk.inj (Except.ok.inj (hsync.symm.trans hfull))
      rfl
  · -- the state was left as it is
    rename_i hlevel
    obtain ⟨-, rfl⟩ := Prod.mk.inj (pure_eq_ok.mp h)
    have hnot (tip' : BlockRef) (htip' : source.tip = .ok tip') : ¬ state.storeMeta.lastReconciledTip < tip'.height := by
      obtain rfl := Except.ok.inj (htip.symm.trans htip')
      omega
    rw [upToDate_self_iff]
    constructor
    · exact fun hall tip' blocks htip' hblks => .inr (hall tip' blocks htip' hblks)
    · exact fun hall tip' blocks htip' hblks => (hall tip' blocks htip' hblks).resolve_left (hnot tip' htip')

end WalletV2State

namespace SmallStore

/-- Two blocks, the first of them with the output if asked for. -/
def source (hash : Hash256) (mined : Bool) : ChainSource Empty where
  tip := .ok ⟨2, hash⟩
  scanRange _ _ := .ok [⟨1, hash, if mined then [7] else [], []⟩, ⟨2, hash, [], []⟩]

def wallet : WalletV2State := ⟨.Regtest, 0, store, [], ⟨0, none⟩⟩

theorem first_sync_upToDate : ∃ report after, wallet.syncIfBehind (source 10 true) 1 1001 = .ok (report, after) ∧
    wallet.UpToDate (source 10 true) 1001 after := by
  refine ⟨_, _, rfl, (WalletV2State.upToDate_iff rfl).mpr ?_⟩
  rintro tip blocks htip -
  cases htip
  exact .inl (by decide)

/-- A wallet that has seen its output mined, and a chain of the same height without it. -/
theorem reorg_missed : ∃ report seen, wallet.sync (source 10 true) 0 1001 = .ok (report, seen) ∧
    seen.syncIfBehind (source 20 false) 1 1002 = .ok (none, seen) ∧ ¬ seen.UpToDate (source 20 false) 1002 seen := by
  refine ⟨_, _, rfl, rfl, fun h => ?_⟩
  have hsame := h _ _ rfl
  exact absurd hsame (by decide +kernel)

end SmallStore

end DomProtocol.Wallet
