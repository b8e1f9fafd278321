import DomProtocol.Lib.Table
import DomProtocol.Wallet.Store

/-!
# `Wallet.Reconcile` — status-only reconciliation against a canonical view

The reconciler walks the store and reassigns the status of each output from what the canonical chain says about it.  Two arms
of its table keep an output as it was although the chain says otherwise: an output that is first seen when it is already
spent, and a confirmed output that is now in another block.  Apart from these the result depends on the chain alone.
-/

namespace DomProtocol.Wallet

open Lib Std

variable {view : CanonicalView}

/-! ## Views -/

structure ScanBlock where
  height : Nat
  hash : Hash256
  outputCommitments : List Commitment
  inputCommitments : List Commitment

/-- What is canonical: the outputs with their blocks, the consumed inputs, and the tip. -/
structure CanonicalView where
  canonOut : Table Commitment BlockRef
  canonIn : Table Commitment Unit
  tip : Option BlockRef

namespace CanonicalView

def empty : CanonicalView := ⟨∅, ∅, none⟩

def addOutput (block : BlockRef) (out : Table Commitment BlockRef) (c : Commitment) : Table Commitment BlockRef :=
  if out[c]?.isSome then out else out.insert c block

/-- One more block; the first block of an output counts, and the highest block is the tip. -/
def addBlock (view : CanonicalView) (b : ScanBlock) : CanonicalView where
  canonOut := b.outputCommitments.foldl (addOutput ⟨b.height, b.hash⟩) view.canonOut
  canonIn := b.inputCommitments.foldl (fun spent c => spent.insert c ()) view.canonIn
  tip := if view.tip.all (fun t => t.height ≤ b.height) then some ⟨b.height, b.hash⟩ else view.tip

def fromBlocks (blocks : List ScanBlock) : CanonicalView := blocks.foldl addBlock empty

def outputBlock (view : CanonicalView) (c : Commitment) : Option BlockRef := view.canonOut[c]?

def isSpent (view : CanonicalView) (c : Commitment) : Bool := view.canonIn[c]?.isSome

end CanonicalView

/-! ## Reconciliation -/

structure ReconcileReport where
  confirmed : Nat
  spent : Nat
  reorged : Nat
  unchanged : Nat
  outputsBefore : Nat
  outputsAfter : Nat
  tip : Option BlockRef
  deriving DecidableEq, Repr

inductive Verdict where
  | confirmed
  | spent
  | reorged
  | unchanged
  deriving DecidableEq, Repr

/-- The table of the pass.  An illegal edge would panic. -/
def reconcileOutput (view : CanonicalView) (now : Nat) (out : StoredOutput) :
    Except TransitionError (Verdict × StoredOutput) :=
  match out.status, view.outputBlock out.commitment, view.isSpent out.commitment with
  | .Unconfirmed, some b, false | .Reorged, some b, false => do return (.confirmed, ← out.confirm b now)
  | .Confirmed, _, true | .Reorged, _, true => do return (.spent, ← out.markSpent now)
  | .Confirmed, none, false | .Spent, none, false => do return (.reorged, ← out.markReorged now)
  | .Spent, some b, false => do return (.confirmed, ← out.confirm b now)
  | _, _, _ => return (.unchanged, out)

/-- The record of an output after the pass, which never meets an illegal edge (`reconcileOutput_eq`). -/
def reconciled (view : CanonicalView) (now : Nat) (out : StoredOutput) : StoredOutput :=
  match out.status, view.outputBlock out.commitment, view.isSpent out.commitment with
  | .Unconfirmed, some b, false | .Reorged, some b, false | .Spent, some b, false =>
    { out with status := .Confirmed, originBlock := some b, updatedAt := now }
  | .Confirmed, _, true | .Reorged, _, true => { out with status := .Spent, updatedAt := now }
  | .Confirmed, none, false | .Spent, none, false => { out with status := .Reorged, updatedAt := now }
  | _, _, _ => out

def verdictOf (view : CanonicalView) (out : StoredOutput) : Verdict :=
  match out.status, view.outputBlock out.commitment, view.isSpent out.commitment with
  | .Unconfirmed, some _, false | .Reorged, some _, false | .Spent, some _, false => .confirmed
  | .Confirmed, _, true | .Reorged, _, true => .spent
  | .Confirmed, none, false | .Spent, none, false => .reorged
  | _, _, _ => .unchanged

/-- **Every arm of the pass is a legal edge.** -/
theorem reconcileOutput_eq (view : CanonicalView) (now : Nat) (out : StoredOutput) :
    reconcileOutput view now out = .ok (verdictOf view out, reconciled view now out) := by
  unfold reconcileOutput verdictOf reconciled StoredOutput.confirm StoredOutput.markSpent StoredOutput.markReorged
    StoredOutput.setStatus
  cases hstat : out.status <;> cases view.outputBlock out.commitment <;> cases view.isSpent out.commitment <;> rfl

theorem commitment_reconciled (view : CanonicalView) (now : Nat) (out : StoredOutput) :
    (reconciled view now out).commitment = out.commitment := by
  unfold reconciled
  split <;> rfl

variable {now : Nat}

theorem commitment_of_reconcileOutput {out : StoredOutput} {r : Verdict × StoredOutput}
    (h : reconcileOutput view now out = .ok r) : r.2.commitment = out.commitment := by
  rw [reconcileOutput_eq] at h
  cases h
  exact commitment_reconciled view now out

theorem forall₂_map_eq {ε β : Type} {f : StoredOutput → Except ε (β × StoredOutput)} {l : List StoredOutput}
    {rs : List (β × StoredOutput)} (hall : List.Forall₂ (fun out r => f out = .ok r) l rs)
    (h : ∀ out r, f out = .ok r → r.2.commitment = out.commitment) :
    l.map StoredOutput.commitment = rs.map (StoredOutput.commitment ∘ Prod.snd) := by
  induction hall with
  | nil => rfl
  | cons hfst _ ih =>
    rw [List.map_cons, List.map_cons, ih, Function.comp_apply, h _ _ hfst]

/-- The loop over the store, record by record in place. -/
def OutputStore.traverse {ε β : Type} (s : OutputStore) (f : StoredOutput → Except ε (β × StoredOutput))
    (h : ∀ out r, f out = .ok r → r.2.commitment = out.commitment) : Except ε (List β × OutputStore) :=
  match hrun : s.outputs.mapM f with
  | .error e => .error e
  | .ok rs => .ok (rs.map Prod.fst, ⟨rs.map Prod.snd, by
      rw [List.map_map, ← forall₂_map_eq (mapM_eq_ok.mp hrun) h]
      exact s.nodup⟩)

def reconcile (store : OutputStore) (view : CanonicalView) (now : Nat) :
    Except TransitionError (ReconcileReport × OutputStore) := do
  let (verdicts, after) ← store.traverse (reconcileOutput view now) fun _ _ => commitment_of_reconcileOutput
  return ({ confirmed := verdicts.count .confirmed
            spent := verdicts.count .spent
            reorged := verdicts.count .reorged
            unchanged := verdicts.count .unchanged
            outputsBefore := store.outputs.length
            outputsAfter := after.outputs.length
            tip := view.tip }, after)

theorem traverse_eq {ε β : Type} {s : OutputStore} {f : StoredOutput → Except ε (β × StoredOutput)}
    {h : ∀ out r, f out = .ok r → r.2.commitment = out.commitment} {verdict : StoredOutput → β}
    {change : StoredOutput → StoredOutput} (hf : ∀ out, f out = .ok (verdict out, change out))
    (hchg : ∀ out, (change out).commitment = out.commitment) :
    s.traverse f h = .ok (s.outputs.map verdict, s.map change hchg) := by
  have hall : s.outputs.mapM f = .ok (s.outputs.map fun out => (verdict out, change out)) := by
    rw [show f = fun out => .ok (verdict out, change out) from funext hf]
    exact List.mapM_pure
  unfold OutputStore.traverse
  split
  · rename_i e hrun
    rw [hall] at hrun
    cases hrun
  · rename_i rs hrun
    rw [hall] at hrun
    cases hrun
    simp only [OutputStore.map, List.map_map, Function.comp_def]

def OutputStore.reconciled (s : OutputStore) (view : CanonicalView) (now : Nat) : OutputStore :=
  s.map (Wallet.reconciled view now) (commitment_reconciled view now)

theorem exists_report (store : OutputStore) (view : CanonicalView) (now : Nat) :
    ∃ report, reconcile store view now = .ok (report, store.reconciled view now) := by
  unfold reconcile
  rw [traverse_eq (reconcileOutput_eq view now) (commitment_reconciled view now)]
  exact ⟨_, rfl⟩

theorem reconcile_eq_ok {store after : OutputStore} {report : ReconcileReport}
    (h : reconcile store view now = .ok (report, after)) : after = store.reconciled view now := by
  obtain ⟨report', hrun⟩ := exists_report store view now
  rw [hrun] at h
  cases h
  rfl

/-! ## What the chain says -/

/-- The record of an output is what the view says of it. -/
structure Follows (view : CanonicalView) (out : StoredOutput) : Prop where
  spent : out.status = .Spent ↔ view.isSpent out.commitment
  confirmed : ∀ b, out.status = .Confirmed ∧ out.originBlock = some b ↔
    view.outputBlock out.commitment = some b ∧ view.isSpent out.commitment = false
  absent : view.outputBlock out.commitment = none → view.isSpent out.commitment = false →
    out.status = .Unconfirmed ∨ out.status = .Reorged

/-- A record up to the difference between `Unconfirmed` and `Reorged` and timestamps.  The block is read for a confirmed
    output only: a reorged or spent one keeps the block it was last seen in. -/
def reading (out : StoredOutput) : StoredOutput :=
  { out with
    status := if out.status = .Reorged then .Unconfirmed else out.status
    originBlock := if out.status = .Confirmed then out.originBlock else none
    updatedAt := 0 }

/-- The part of a record that no pass changes. -/
def identity (out : StoredOutput) : StoredOutput := { out with status := .Unconfirmed, originBlock := none, updatedAt := 0 }

def chainReading (view : CanonicalView) (out : StoredOutput) : StoredOutput :=
  if view.isSpent out.commitment then { identity out with status := .Spent }
  else match view.outputBlock out.commitment with
    | some b => { identity out with status := .Confirmed, originBlock := some b }
    | none => identity out

theorem reading_eq_chainReading_iff (view : CanonicalView) (out : StoredOutput) :
    Follows view out ↔ reading out = chainReading view out := by
  unfold reading chainReading identity
  constructor
  · intro h
    obtain ⟨hsp, hcfm, habs⟩ := h
    cases hs : view.isSpent out.commitment with
    | true =>
      have hstat := hsp.mpr hs
      simp [hstat]
    | false =>
      cases hb : view.outputBlock out.commitment with
      | some b =>
        obtain ⟨hstat, hblk⟩ := (hcfm b).mpr ⟨hb, hs⟩
        simp [hstat, hblk]
      | none =>
        rcases habs hb hs with hstat | hstat <;> simp [hstat]
  · intro h
    cases hs : view.isSpent out.commitment <;> cases hb : view.outputBlock out.commitment <;>
      cases hstat : out.status <;> simp [hs, hb, hstat] at h <;>
      exact ⟨by simp [hs, hstat], by simp [hs, hb, hstat, h], by simp [hs, hb, hstat]⟩

/-- One pass makes a record follow the view, unless the output is first seen when it is spent, or is confirmed in another
    block. -/
def Settles (view : CanonicalView) (out : StoredOutput) : Prop :=
  (view.isSpent out.commitment = true → out.status ≠ .Unconfirmed) ∧
    ∀ b, view.outputBlock out.commitment = some b → view.isSpent out.commitment = false →
      out.status = .Confirmed → out.originBlock = some b

theorem identity_reconciled (view : CanonicalView) (now : Nat) (out : StoredOutput) :
    identity (reconciled view now out) = identity out := by
  unfold reconciled
  split <;> rfl

theorem chainReading_reconciled (view first : CanonicalView) (now : Nat) (out : StoredOutput) :
    chainReading view (reconciled first now out) = chainReading view out := by
  unfold chainReading
  rw [identity_reconciled, commitment_reconciled]

theorem follows_reconciled_iff (view : CanonicalView) (now : Nat) (out : StoredOutput) :
    Follows view (reconciled view now out) ↔ Settles view out := by
  rw [reading_eq_chainReading_iff, chainReading_reconciled]
  unfold reconciled chainReading Settles reading identity
  cases hs : view.isSpent out.commitment <;> cases hb : view.outputBlock out.commitment <;>
    cases hstat : out.status <;> simp [hstat]

def Undisturbed (first second : CanonicalView) (out : StoredOutput) : Prop :=
  (second.isSpent out.commitment = true → out.status ≠ .Unconfirmed) ∧
    ∀ b, second.outputBlock out.commitment = some b → second.isSpent out.commitment = false →
      (out.status = .Confirmed → out.originBlock = some b) ∧
      (out.status ≠ .Confirmed → first.isSpent out.commitment = false →
        ∀ b', first.outputBlock out.commitment = some b' → b' = b)

theorem undisturbed_iff (first second : CanonicalView) (now : Nat) (out : StoredOutput) :
    Undisturbed first second out ↔ Settles second (reconciled first now out) ∧ Settles second out := by
  unfold Undisturbed Settles
  rw [commitment_reconciled]
  unfold reconciled
  cases hs : first.isSpent out.commitment <;> cases hb : first.outputBlock out.commitment <;>
    cases hstat : out.status <;> simp [hstat] <;> grind

/-! ## Two passes -/

/-- Both passes run, the result follows the second view, reads as the second view alone does, and keeps every output with its
    value and blinding. -/
def DependsOnChain (store : OutputStore) (first second : CanonicalView) (now later : Nat) : Prop :=
  ∃ report between report' after report'' direct,
    reconcile store first now = .ok (report, between) ∧
    reconcile between second later = .ok (report', after) ∧
    reconcile store second later = .ok (report'', direct) ∧
    (∀ out ∈ after.outputs, Follows second out) ∧
    after.outputs.map reading = direct.outputs.map reading ∧
    after.outputs.map identity = store.outputs.map identity

theorem map_identity_reconciled (store : OutputStore) (view : CanonicalView) (now : Nat) :
    (store.reconciled view now).outputs.map identity = store.outputs.map identity := by
  show (store.outputs.map (reconciled view now)).map identity = _
  rw [List.map_map]
  exact List.map_congr_left fun out _ => identity_reconciled view now out

/-- For one output: the two passes follow the view and read as the second alone exactly when nothing disturbs them. -/
theorem follows_and_reading_iff (first second : CanonicalView) (now later : Nat) (out : StoredOutput) :
    Follows second (reconciled second later (reconciled first now out)) ∧
      reading (reconciled second later (reconciled first now out)) = reading (reconciled second later out) ↔
      Undisturbed first second out := by
  have hdir : Follows second (reconciled second later out) ↔
      reading (reconciled second later out) = chainReading second out := by
    rw [reading_eq_chainReading_iff, chainReading_reconciled]
  have htwice : Follows second (reconciled second later (reconciled first now out)) ↔
      reading (reconciled second later (reconciled first now out)) = chainReading second out := by
    rw [reading_eq_chainReading_iff, chainReading_reconciled, chainReading_reconciled]
  rw [undisturbed_iff first second now out, ← follows_reconciled_iff second later, ← follows_reconciled_iff second later out]
  constructor
  · rintro ⟨hfol, hsame⟩
    refine ⟨hfol, hdir.mpr ?_⟩
    rw [← hsame]
    exact htwice.mp hfol
  · rintro ⟨hfol, hfol'⟩
    refine ⟨hfol, ?_⟩
    rw [htwice.mp hfol, hdir.mp hfol']

theorem undisturbed_of_dependsOnChain {store : OutputStore} {first second : CanonicalView} {later : Nat}
    (h : DependsOnChain store first second now later) : ∀ out ∈ store.outputs, Undisturbed first second out := by
  intro out hmem
  obtain ⟨_, between, _, after, _, direct, hfst, hscd, hdir, hfol, hsame, -⟩ := h
  obtain rfl := reconcile_eq_ok hfst
  obtain rfl := reconcile_eq_ok hscd
  obtain rfl := reconcile_eq_ok hdir
  refine (follows_and_reading_iff first second now later out).mp ⟨?_, ?_⟩
  · exact hfol _ (List.mem_map_of_mem (List.mem_map_of_mem hmem))
  · simp only [OutputStore.reconciled, OutputStore.map, List.map_map] at hsame
    exact List.map_inj_left.mp hsame out hmem

/-- **Reconciliation depends only on the chain** exactly when no output is first seen when the second view already spends it,
    and none that is confirmed, before or by the first view, is in another block in the second. -/
theorem dependsOnChain_iff (store : OutputStore) (first second : CanonicalView) (now later : Nat) :
    DependsOnChain store first second now later ↔ ∀ out ∈ store.outputs, Undisturbed first second out := by
  refine ⟨undisturbed_of_dependsOnChain, fun hall => ?_⟩
  obtain ⟨report, hfirst⟩ := exists_report store first now
  obtain ⟨report', hsecond⟩ := exists_report (store.reconciled first now) second later
  obtain ⟨report'', hdirect⟩ := exists_report store second later
  refine ⟨report, _, report', _, report'', _, hfirst, hsecond, hdirect, ?_, ?_, ?_⟩
  · intro out hmem
    obtain ⟨mid, hmid, rfl⟩ := List.mem_map.mp hmem
    obtain ⟨start, hstart, rfl⟩ := List.mem_map.mp hmid
    exact ((follows_and_reading_iff first second now later start).mpr (hall start hstart)).1
  · simp only [OutputStore.reconciled, OutputStore.map, List.map_map]
    refine List.map_congr_left fun start hstart => ?_
    exact ((follows_and_reading_iff first second now later start).mpr (hall start hstart)).2
  · rw [map_identity_reconciled, map_identity_reconciled]

/-- **A second pass over the same view is idle**: it changes no record and reports none as changed. -/
theorem second_pass_idle (store : OutputStore) (view : CanonicalView) (now later : Nat) :
    ∃ report after, reconcile store view now = .ok (report, after) ∧ reconcile after view later =
      .ok (⟨0, 0, 0, after.outputs.length, after.outputs.length, after.outputs.length, view.tip⟩, after) := by
  have hidle (out : StoredOutput) : verdictOf view (reconciled view now out) = .unchanged ∧
      reconciled view later (reconciled view now out) = reconciled view now out := by
    unfold verdictOf reconciled
    cases hstat : out.status <;> cases hb : view.outputBlock out.commitment <;> cases hs : view.isSpent out.commitment <;>
      simp [hstat, hb, hs]
  obtain ⟨report, hrun⟩ := exists_report store view now
  refine ⟨report, _, hrun, ?_⟩
  have hverdicts : (store.reconciled view now).outputs.map (verdictOf view) =
      List.replicate (store.reconciled view now).outputs.length .unchanged := by
    simp [OutputStore.reconciled, OutputStore.map, Function.comp_def, hidle]
  have hafter : (store.reconciled view now).reconciled view later = store.reconciled view now := by
    apply OutputStore.ext
    simp [OutputStore.reconciled, OutputStore.map, Function.comp_def, hidle]
  unfold reconcile
  rw [traverse_eq (reconcileOutput_eq view later) (commitment_reconciled view later), hverdicts, ← OutputStore.reconciled,
    hafter]
  simp [List.count_replicate]

namespace SmallStore

def fresh : StoredOutput := .newUnconfirmed 7 500 9 .ReceiveSlate false 1000

def store : OutputStore := ⟨[fresh], List.nodup_singleton _⟩

/-- The output in a block of the given hash, and a block that spends it when asked. -/
def chain (hash : Hash256) (spent : Bool) : CanonicalView :=
  .fromBlocks [⟨1, hash, [7], []⟩, ⟨2, 30, [], if spent then [7] else []⟩]

end SmallStore

/-- An output created and spent between two scans stays `Unconfirmed`, and one mined again in another block keeps the block it
    was confirmed in. -/
theorem stale_records_kept : ¬ DependsOnChain SmallStore.store .empty (SmallStore.chain 10 true) 1001 1002 ∧
      ¬ DependsOnChain SmallStore.store (SmallStore.chain 10 false) (SmallStore.chain 20 false) 1001 1002 := by
  refine ⟨fun h => ?_, fun h => ?_⟩
  · have hseen := (undisturbed_of_dependsOnChain h SmallStore.fresh List.mem_cons_self).1
    exact hseen (by decide) rfl
  · have hblock := (undisturbed_of_dependsOnChain h SmallStore.fresh List.mem_cons_self).2 ⟨1, 20⟩ (by decide) (by decide)
    have hsame := hblock.2 (by decide) (by decide) ⟨1, 10⟩ (by decide)
    exact absurd hsame (by decide)

end DomProtocol.Wallet
