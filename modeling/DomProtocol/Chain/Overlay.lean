import DomProtocol.Chain.Plan

/-!
# `Chain.Overlay` — disconnecting and connecting on overlays, as undo and replay

Seen through the overlays, disconnecting the canonical blocks above a fork point is `undo` of their change sets and
connecting a branch is `replay`.  What `undo` writes for a spent output is `restored`: the oldest record of the
commitment among the disconnected blocks, and only without one the newest record at or below the fork point.
-/

namespace DomProtocol

open Lib Delta
open Good (ForkAt WithinPolicy)

variable {X : Externals}
variable {S : ChainState} {chain : List (Hash256 × BlockHeader)}

/-! ## Where a spent output is resurrected from -/

def utxoChanges (blocks : List (Hash256 × Block)) : List (Delta Commitment UtxoEntry) :=
  utxoDeltas (blocks.map asBody)

/-- The kernel changes of a list of blocks. -/
def kernelChanges (blocks : List (Hash256 × Block)) : List (Delta Commitment Hash256) :=
  kernelDeltas (blocks.map asBody)

/-- The outputs of disconnected blocks, each with its oldest record. -/
abbrev disconnectIndex (disc : List (Hash256 × Block)) : Table Commitment UtxoEntry :=
  disc.reverse.foldl (fun t hb => recordBlockOutputs t hb.2) ∅

variable {blocks : List (Hash256 × Block)}

theorem getElem?_disconnectIndex (hshp : ∀ hb ∈ blocks, BlockShape hb.2) (c : Commitment) :
    (disconnectIndex blocks)[c]? = firstAdded c (utxoChanges blocks) := by
  rw [disconnectIndex, List.foldl_reverse]
  induction blocks with
  | nil => simp [utxoChanges, utxoDeltas, firstAdded]
  | cons hb blocks ih =>
    have hnd : (hb.2.utxoEntries.map Prod.fst).Nodup := by
      rw [Block.map_fst_utxoEntries]
      exact (hshp hb List.mem_cons_self).outputs_nodup
    have hrest := ih fun x hx => hshp x (List.mem_cons_of_mem _ hx)
    rw [List.foldr_cons, recordBlockOutputs, getElem?_foldl_insert hnd, hrest]
    simp only [firstAdded, utxoChanges, utxoDeltas, List.map_cons, List.findSome?_cons, asBody, utxoDelta]
    cases hb.2.utxoEntries.lookup c <;> simp

namespace Good

theorem canonicalBlockForOutput_eq (hG : Good X S chain) (c : Commitment) {k : Nat}
    {x : Hash256 × BlockHeader} (hx : chain[k]? = some x) :
    ∃ block body, canonicalBlockForOutput S.store c k = .ok block ∧ S.store.blockBodies[x.1]? = some body ∧
      (block.bind fun b => b.utxoEntries.lookup c) = (utxoDelta body).added.lookup c := by
  have hidx : S.store.heightIndex[k]? = some x.1 := by rw [hG.canonical.index, hx]; rfl
  obtain ⟨body, hbody, hof⟩ := hG.storeOk.body (hG.canonical.stored x (List.mem_of_getElem? hx))
  cases body with
  | block b =>
    refine ⟨some b, .block b, ?_, hbody, rfl⟩
    simp [canonicalBlockForOutput, hidx, hbody, BlockBody.isMainnetGenesisIdentity, BlockBody.decodeBlock,
      Except.mapError, Functor.map, Except.map]
  | identityEnvelope =>
    obtain rfl : k = 0 := by rw [← hG.height_getElem hx]; exact hof.1
    refine ⟨none, .identityEnvelope, ?_, hbody, rfl⟩
    simp [canonicalBlockForOutput, hidx, hbody, BlockBody.isMainnetGenesisIdentity]

theorem findCanonicalOutputEntry_eq (hG : Good X S chain) (c : Commitment) {height : Nat}
    (hht : height < chain.length) : findCanonicalOutputEntry S.store c height =
      .ok (lastAdded c (utxoDeltas (bodiesOf S.store (chain.take (height + 1))))) := by
  -- the records at one height, and what is below
  have hstep : ∀ k, k < chain.length → ∃ block,
      canonicalBlockForOutput S.store c k = .ok block ∧
      lastAdded c (utxoDeltas (bodiesOf S.store (chain.take (k + 1)))) =
        (block.bind fun b => b.utxoEntries.lookup c).or
          (lastAdded c (utxoDeltas (bodiesOf S.store (chain.take k)))) := by
    intro k hk
    obtain ⟨block, body, hblk, hbody, hlk⟩ :=
      hG.canonicalBlockForOutput_eq c (List.getElem?_eq_getElem hk)
    refine ⟨block, hblk, ?_⟩
    rw [List.take_succ_eq_append_getElem hk, hlk]
    simp only [bodiesOf, List.filterMap_append, List.filterMap_cons, List.filterMap_nil, hbody, Option.map_some,
      utxoDeltas, List.map_append, List.map_cons, List.map_nil, lastAdded, List.reverse_append,
      List.reverse_cons, List.reverse_nil, List.nil_append, List.singleton_append, List.findSome?_cons]
    cases (utxoDelta body).added.lookup c <;> simp
  induction height with
  | zero =>
    obtain ⟨block, hblk, hlast⟩ := hstep 0 hht
    rw [findCanonicalOutputEntry, hblk, hlast]
    simp [bodiesOf, utxoDeltas, lastAdded, pure, Except.pure]
  | succ height ih =>
    obtain ⟨block, hblk, hlast⟩ := hstep (height + 1) hht
    rw [findCanonicalOutputEntry, hblk, hlast, ok_bind, ih (by omega)]
    cases (block.bind fun b => b.utxoEntries.lookup c) with
    | none => simp
    | some entry => simp [pure, Except.pure]

end Good

/-- The record a spent output is given back when blocks above a fork point are disconnected. -/
def restored (S : ChainState) (base : List (Hash256 × BlockHeader)) (disc : List (Hash256 × Block))
    (c : Commitment) : Option UtxoEntry :=
  (firstAdded c (utxoChanges disc)).or (lastAdded c (utxoDeltas (bodiesOf S.store base)))

theorem addedKeys_utxoDelta (b : Block) : (utxoDelta (.block b)).addedKeys = b.outputCommitments :=
  b.map_fst_utxoEntries

variable {o o' : Overlays} {hb : Hash256 × Block}

section Disconnect

variable {a : Hash256 × BlockHeader} {disc : List (Hash256 × Block)} (hG : Good X S chain) (ha : a ∈ chain)
  (hshp : ∀ hb ∈ disc, BlockShape hb.2)

include hG ha hshp

/-- **What `resurrect` returns.** -/
theorem Good.resurrect_iff {c : Commitment} {entry : UtxoEntry} :
    resurrect S.store a.2.height.toNat (disconnectIndex disc) c = .ok entry ↔
      restored S (upTo chain a) disc c = some entry := by
  have hlt := (List.getElem?_eq_some_iff.mp (hG.getElem_height ha)).1
  simp only [resurrect, hG.findCanonicalOutputEntry_eq c hlt, ok_bind, okOr_eq_ok,
    getElem?_disconnectIndex hshp]
  rfl

/-! ## Disconnecting -/

/-- What the overlays read as, in front of the store. -/
def Overlays.utxoView (o : Overlays) (s : DomStore) : Commitment → Option UtxoEntry := view o.utxo s.utxos

def Overlays.kernelView (o : Overlays) (s : DomStore) : Commitment → Option Hash256 := view o.kernel s.kernels

/-- **One disconnected block is undone.** -/
theorem Good.applyDisconnect_spec
    (h : applyDisconnect S.store a.2.height.toNat (disconnectIndex disc) o hb = .ok o') : o'.utxoView S.store =
        undoOne (restored S (upTo chain a) disc) (utxoDelta (asBody hb).2) (o.utxoView S.store) ∧
      ∀ restore, o'.kernelView S.store = undoOne restore (kernelDelta hb.1 (asBody hb).2) (o.kernelView S.store) := by
  obtain ⟨hash, block⟩ := hb
  simp only [applyDisconnect, inversion] at h
  obtain ⟨utxo, hutxo, rfl⟩ := h
  constructor
  · funext c
    have hsou : ∀ k ∈ block.inputs, ∀ v, resurrect S.store a.2.height.toNat (disconnectIndex disc) k = .ok v ↔
        restored S (upTo chain a) disc k = some v := fun k _ v => hG.resurrect_iff ha hshp
    obtain ⟨-, rfl⟩ := (foldlM_restore hsou).mp hutxo
    simp only [Overlays.utxoView, view_foldl_insert, undoOne, asBody, addedKeys_utxoDelta]
    rfl
  · intro restore
    funext excess
    simp only [Overlays.kernelView, undoOne, asBody, kernelDelta, addedKeys, List.not_mem_nil, if_false]
    rw [← List.foldl_map (f := Prod.fst) (g := fun (o : Table Commitment (Option Hash256)) k => o.insert k none),
      view_foldl_insert]
    rfl

/-- **The disconnected blocks are undone**, the tip first. -/
theorem Good.foldlM_applyDisconnect_spec
    (h : blocks.reverse.foldlM (applyDisconnect S.store a.2.height.toNat (disconnectIndex disc)) o = .ok o') : o'.utxoView S.store =
        undo (restored S (upTo chain a) disc) (utxoChanges blocks) (o.utxoView S.store) ∧
      ∀ restore, o'.kernelView S.store = undo restore (kernelChanges blocks) (o.kernelView S.store) := by
  induction blocks generalizing o' with
  | nil =>
    obtain rfl : o = o' := by simpa using h
    exact ⟨rfl, fun _ => rfl⟩
  | cons hb blocks ih =>
    simp only [List.reverse_cons, List.foldlM_append, List.foldlM_cons, List.foldlM_nil, inversion] at h
    obtain ⟨o₁, hrest, o₂, hone, rfl⟩ := h
    obtain ⟨hutxo, hker⟩ := ih hrest
    obtain ⟨hutxo', hker'⟩ := hG.applyDisconnect_spec ha hshp hone
    refine ⟨?_, fun restore => ?_⟩
    · rw [hutxo', hutxo]
      rfl
    · rw [hker' restore, hker restore]
      rfl

theorem Good.foldlM_applyDisconnect_ok
    (hsou : ∀ hb ∈ blocks, ∀ c ∈ hb.2.inputs, restored S (upTo chain a) disc c ≠ none) (o : Overlays) :
    ∃ o', blocks.foldlM (applyDisconnect S.store a.2.height.toNat (disconnectIndex disc)) o = .ok o' := by
  induction blocks generalizing o with
  | nil => exact ⟨o, rfl⟩
  | cons hb blocks ih =>
    have hone : ∃ o', applyDisconnect S.store a.2.height.toNat (disconnectIndex disc) o hb = .ok o' := by
      simp only [applyDisconnect, inversion]
      refine ⟨_, _, (foldlM_restore fun _ _ _ => ?_).mpr ⟨hsou hb List.mem_cons_self, rfl⟩, rfl⟩
      exact hG.resurrect_iff ha hshp
    obtain ⟨o₁, hone⟩ := hone
    obtain ⟨o', hrest⟩ := ih (fun x hx => hsou x (List.mem_cons_of_mem _ hx)) o₁
    exact ⟨o', by rw [List.foldlM_cons, hone, ok_bind, hrest]⟩

end Disconnect

/-! ## Connecting -/

/-- A block can be connected to a UTXO map and a kernel index. -/
structure Connectable (maturity : Nat) (utxos : Commitment → Option UtxoEntry)
    (kernels : Commitment → Option Hash256) (hb : Hash256 × Block) : Prop where
  utxoFits : (utxoDelta (asBody hb).2).Applicable utxos
  kernelFits : (kernelDelta hb.1 (asBody hb).2).Applicable kernels
  mature : InputsMature utxos hb.2.header.height.toNat maturity hb.2.inputs

variable {s : DomStore} {maturity : Nat}

/-- **One connected block is replayed.** -/
theorem applyConnect_spec (hshp : BlockShape hb.2) (h : applyConnect s maturity o hb = .ok o') :
    Connectable maturity (o.utxoView s) (o.kernelView s) hb ∧
      o'.utxoView s = (utxoDelta (asBody hb).2).apply (o.utxoView s) ∧
      o'.kernelView s = (kernelDelta hb.1 (asBody hb).2).apply (o.kernelView s) := by
  obtain ⟨hash, block⟩ := hb
  simp only [applyConnect, inversion] at h
  obtain ⟨spent, hsp, utxo, hutxo, kernel, hker, rfl⟩ := h
  obtain ⟨hin, hins, rfl⟩ := foldlM_spend.mp hsp
  obtain ⟨hout, houts, rfl⟩ := foldlM_create.mp hutxo
  obtain ⟨hexc, hexcs, rfl⟩ := foldlM_create.mp hker
  refine ⟨⟨⟨hin, ?_, hout, ?_⟩, ⟨List.nodup_nil, by simp [asBody, kernelDelta], hexc, hexcs⟩, ?_⟩, ?_, ?_⟩
  · intro c hc
    obtain ⟨entry, hentry, -⟩ := hins c hc
    exact fun hnone => by simp [Overlays.utxoView, hentry] at hnone
  · intro c hc
    have hnot : c ∉ block.inputs := by
      intro hin
      refine hshp.cut_through c hin ?_
      rwa [← addedKeys_utxoDelta]
    have hread := houts c hc
    rwa [view_foldl_insert, if_neg hnot] at hread
  · intro c hc entry hentry hcb
    obtain ⟨entry', hentry', hmtr⟩ := hins c hc
    obtain rfl := Option.some.inj (hentry.symm.trans hentry')
    rw [rejectIf_eq_ok, not_and, not_not] at hmtr
    exact hmtr hcb
  · funext c
    rw [apply_eq_or, Overlays.utxoView, view_foldl_write hout, view_foldl_insert]
    rfl
  · funext excess
    rw [apply_eq_or]
    exact view_foldl_write hexc excess

theorem applyConnect_ok (hshp : BlockShape hb.2) (h : Connectable maturity (o.utxoView s) (o.kernelView s) hb) :
    ∃ o', applyConnect s maturity o hb = .ok o' := by
  obtain ⟨hash, block⟩ := hb
  simp only [applyConnect, inversion]
  refine ⟨_, _, foldlM_spend.mpr ⟨h.utxoFits.removed_nodup, fun c hc => ?_, rfl⟩, _,
    foldlM_create.mpr ⟨h.utxoFits.added_nodup, fun c hc => ?_, rfl⟩, _,
    foldlM_create.mpr ⟨h.kernelFits.added_nodup, h.kernelFits.added_absent, rfl⟩, rfl⟩
  · obtain ⟨entry, hentry⟩ := Option.ne_none_iff_exists'.mp (h.utxoFits.removed_present c hc)
    refine ⟨entry, hentry, ?_⟩
    rw [rejectIf_eq_ok, not_and, not_not]
    exact h.mature c hc entry hentry
  · rw [view_foldl_insert]
    split
    · rfl
    · exact h.utxoFits.added_absent c hc

/-- Blocks can be connected one after the other. -/
def AllConnectable (maturity : Nat) : (Commitment → Option UtxoEntry) → (Commitment → Option Hash256) →
    List (Hash256 × Block) → Prop
  | _, _, [] => True
  | utxos, kernels, hb :: blocks =>
    Connectable maturity utxos kernels hb ∧
      AllConnectable maturity ((utxoDelta (asBody hb).2).apply utxos)
        ((kernelDelta hb.1 (asBody hb).2).apply kernels) blocks

theorem AllConnectable.replayable {utxos : Commitment → Option UtxoEntry} {kernels : Commitment → Option Hash256}
    (h : AllConnectable maturity utxos kernels blocks) :
    Delta.Replayable utxos (utxoChanges blocks) ∧ Delta.Replayable kernels (kernelChanges blocks) := by
  induction blocks generalizing utxos kernels with
  | nil => exact ⟨trivial, trivial⟩
  | cons hb blocks ih =>
    obtain ⟨hutxo, hker⟩ := ih h.2
    exact ⟨⟨h.1.utxoFits, hutxo⟩, ⟨h.1.kernelFits, hker⟩⟩

/-- **The connected blocks are replayed.** -/
theorem foldlM_applyConnect_spec (hshp : ∀ hb ∈ blocks, BlockShape hb.2)
    (h : blocks.foldlM (applyConnect s maturity) o = .ok o') :
    AllConnectable maturity (o.utxoView s) (o.kernelView s) blocks ∧
      o'.utxoView s = replay (o.utxoView s) (utxoChanges blocks) ∧
      o'.kernelView s = replay (o.kernelView s) (kernelChanges blocks) := by
  induction blocks generalizing o with
  | nil =>
    obtain rfl : o = o' := by simpa using h
    exact ⟨trivial, rfl, rfl⟩
  | cons hb blocks ih =>
    simp only [List.foldlM_cons, bind_eq_ok] at h
    obtain ⟨o₁, hone, hrest⟩ := h
    obtain ⟨hconn, hutxo, hker⟩ := applyConnect_spec (hshp hb List.mem_cons_self) hone
    obtain ⟨hall, hutxo', hker'⟩ := ih (fun x hx => hshp x (List.mem_cons_of_mem _ hx)) hrest
    rw [hutxo, hker] at hall
    rw [hutxo] at hutxo'
    rw [hker] at hker'
    exact ⟨⟨hconn, hall⟩, hutxo', hker'⟩

theorem foldlM_applyConnect_ok (hshp : ∀ hb ∈ blocks, BlockShape hb.2)
    (h : AllConnectable maturity (o.utxoView s) (o.kernelView s) blocks) :
    ∃ o', blocks.foldlM (applyConnect s maturity) o = .ok o' := by
  induction blocks generalizing o with
  | nil => exact ⟨o, rfl⟩
  | cons hb blocks ih =>
    obtain ⟨o₁, hone⟩ := applyConnect_ok (hshp hb List.mem_cons_self) h.1
    obtain ⟨-, hutxo, hker⟩ := applyConnect_spec (hshp hb List.mem_cons_self) hone
    have hrest := h.2
    rw [← hutxo, ← hker] at hrest
    obtain ⟨o', ho'⟩ := ih (fun x hx => hshp x (List.mem_cons_of_mem _ hx)) hrest
    exact ⟨o', by rw [List.foldlM_cons, hone, ok_bind, ho']⟩

end DomProtocol
