import DomProtocol.Chain.Overlay

/-!
# `Chain.Reorganize` — the store after a promotion

The overlays of a promotion are flushed to the tables in one transaction.  Afterwards the canonical chain is the old
one up to the fork point followed by the branch, and the kernel index is its replay.
-/

namespace DomProtocol

open Lib
open Good (ForkAt WithinPolicy)

variable {X : Externals}
variable {S : ChainState} {chain : List (Hash256 × BlockHeader)}

/-! ## Flushing the overlays -/

theorem UtxoEntry.toBytes_injective {e e' : UtxoEntry} (h : e.toBytes = e'.toBytes) : e = e' := by
  have := fromBytes_toBytes e
  rw [h, fromBytes_toBytes, Except.ok.injEq] at this
  exact this.symm

variable {s : DomStore} {pending : Commitment × Option UtxoEntry}

theorem utxoUpdate_cases {r : Option (Commitment × Option UtxoEntry)}
    (h : utxoUpdate s pending = .ok r) :
    (r = none ∧ s.utxos[pending.1]? = pending.2) ∨ r = some pending := by
  unfold utxoUpdate at h
  cases hcur : s.utxos[pending.1]? with
  | none =>
    cases hdes : pending.2 with
    | none =>
      simp only [hcur, hdes, Except.ok.injEq] at h
      exact .inl ⟨h.symm, rfl⟩
    | some desired =>
      simp only [hcur, hdes, Except.ok.injEq] at h
      exact .inr h.symm
  | some current =>
    cases hdes : pending.2 with
    | none =>
      simp only [hcur, hdes, Except.ok.injEq] at h
      exact .inr h.symm
    | some desired =>
      simp only [hcur, hdes] at h
      by_cases hbyt : current.toBytes = desired.toBytes
      · rw [if_pos hbyt, Except.ok.injEq] at h
        exact .inl ⟨h.symm, congrArg some (UtxoEntry.toBytes_injective hbyt)⟩
      · rw [if_neg hbyt] at h
        by_cases hsame : current.proof = desired.proof ∧ current.isCoinbase = desired.isCoinbase
        · rw [if_pos hsame, Except.ok.injEq] at h
          exact .inr h.symm
        · rw [if_neg hsame] at h
          cases h

theorem utxoUpdate_ok_iff :
    (∃ r, utxoUpdate s pending = .ok r) ↔
      ∀ current desired, s.utxos[pending.1]? = some current → pending.2 = some desired →
        current.proof = desired.proof ∧ current.isCoinbase = desired.isCoinbase := by
  unfold utxoUpdate
  cases hcur : s.utxos[pending.1]? with
  | none => cases hdes : pending.2 <;> simp
  | some current =>
    cases hdes : pending.2 with
    | none => simp
    | some desired =>
      by_cases hbyt : current.toBytes = desired.toBytes
      · have := UtxoEntry.toBytes_injective hbyt
        simp [this]
      · by_cases hsame : current.proof = desired.proof ∧ current.isCoinbase = desired.isCoinbase <;>
          simp [hbyt, hsame]

theorem filterMap_sublist {α : Type} {l : List α} {rs : List (Option α)}
    (h : List.Forall₂ (fun a r => r = none ∨ r = some a) l rs) : (rs.filterMap id).Sublist l := by
  induction h with
  | nil => exact .slnil
  | cons hr _ ih =>
    rcases hr with rfl | rfl
    · exact .cons _ ih
    · exact .cons_cons _ ih

variable {overlay : Table Commitment (Option UtxoEntry)}

/-- **Flushing the UTXO overlay** makes the table read as the overlay did. -/
theorem buildUtxoUpdates_spec
    {updates : List (Commitment × Option UtxoEntry)} (h : buildUtxoUpdates s overlay = .ok updates) (c : Commitment) :
    (applyUpdates s.utxos updates)[c]? = view overlay s.utxos c := by
  simp only [buildUtxoUpdates, inversion] at h
  obtain ⟨rs, hrs, rfl⟩ := h
  have hall := mapM_eq_ok.mp hrs
  refine getElem?_applyUpdates_overlay (filterMap_sublist (hall.imp fun p r hr => ?_)) ?_ c
  · rcases utxoUpdate_cases hr with ⟨rfl, -⟩ | rfl
    · exact .inl rfl
    · exact .inr rfl
  · intro k desired hmem hskip
    obtain ⟨r, hr, hupt⟩ := exists_of_mapM_eq_ok hrs hmem
    rcases utxoUpdate_cases hupt with ⟨-, hsame⟩ | rfl
    · exact hsame
    · have hwrt : (k, desired) ∈ rs.filterMap id := List.mem_filterMap.mpr ⟨_, hr, rfl⟩
      exact absurd hwrt hskip

/-- The flush goes through when pending records agree in proof and flag with the stored ones they replace. -/
theorem buildUtxoUpdates_ok_iff :
    (∃ updates, buildUtxoUpdates s overlay = .ok updates) ↔
      ∀ (c : Commitment) (current desired : UtxoEntry), s.utxos[c]? = some current →
        overlay[c]? = some (some desired) →
        current.proof = desired.proof ∧ current.isCoinbase = desired.isCoinbase := by
  simp only [buildUtxoUpdates, inversion]
  constructor
  · rintro ⟨_, rs, hrs, -⟩ c current desired hcur hpend
    have hmem := Std.ExtTreeMap.mem_toList_iff_getElem?_eq_some.mpr hpend
    obtain ⟨r, -, hr⟩ := exists_of_mapM_eq_ok hrs hmem
    exact utxoUpdate_ok_iff.mp ⟨r, hr⟩ current desired hcur rfl
  · intro h
    have hok : ∀ p ∈ overlay.toList, ∃ r, utxoUpdate s p = .ok r := by
      rintro ⟨c, pending⟩ hp
      rw [Std.ExtTreeMap.mem_toList_iff_getElem?_eq_some] at hp
      refine utxoUpdate_ok_iff.mpr fun current desired hcur hdes => ?_
      subst hdes
      exact h c current desired hcur hp
    obtain ⟨rs, hrs⟩ := mapM_ok_of_forall hok
    exact ⟨_, rs, hrs, rfl⟩

theorem buildKernelUpdates_spec {overlay : Table Commitment (Option Hash256)} (excess : Commitment) :
    (applyUpdates s.kernels (buildKernelUpdates s overlay))[excess]? = view overlay s.kernels excess := by
  refine getElem?_applyUpdates_overlay List.filter_sublist ?_ excess
  intro k desired hmem hskip
  by_contra hne
  exact hskip (List.mem_filter.mpr ⟨hmem, by simpa using hne⟩)

/-! ## The height index -/

theorem lookup_heights {blocks : List (Hash256 × BlockHeader)} {first : Nat}
    (h : ∀ i x, blocks[i]? = some x → x.2.height.toNat = first + i) (k : Nat) :
    (blocks.map fun x => (x.2.height.toNat, x.1)).lookup k =
      if k < first then none else blocks[k - first]?.map Prod.fst := by
  induction blocks generalizing first with
  | nil => simp
  | cons x blocks ih =>
    have hx := h 0 x rfl
    have hnext : ∀ i y, blocks[i]? = some y → y.2.height.toNat = first + 1 + i := by
      intro i y hy
      have := h (i + 1) y hy
      omega
    have hrest := ih hnext
    rw [List.map_cons, List.lookup_cons, hrest, hx, Nat.add_zero]
    by_cases hk : k = first
    · simp [hk]
    · have hbeq : (k == first) = false := by simpa using hk
      rw [hbeq]
      by_cases hlt : k < first
      · rw [if_pos hlt, if_pos (Nat.lt_succ_of_lt hlt)]
      · have hsucc : k - first = (k - (first + 1)) + 1 := by omega
        rw [if_neg hlt, if_neg (by omega), hsucc, List.getElem?_cons_succ]

/-! ## The new chain -/

variable {blocks : List (Hash256 × Block)}

section Fork

variable {t : Hash256} {a : Hash256 × BlockHeader} {l : List (Hash256 × BlockHeader)}

/-- The chain after a promotion: the old one up to the fork point, then the branch. -/
def reorged (chain : List (Hash256 × BlockHeader)) (a : Hash256 × BlockHeader)
    (l : List (Hash256 × BlockHeader)) : List (Hash256 × BlockHeader) := upTo chain a ++ l.reverse

variable (hG : Good X S chain)
include hG

theorem Good.getLast_upTo (ha : a ∈ chain) : (upTo chain a).getLast? = some a := by
  have hget := hG.getElem_height ha
  have hlt := (List.getElem?_eq_some_iff.mp hget).1
  rw [List.getLast?_eq_getElem?, hG.length_upTo ha, Nat.add_sub_cancel, upTo, List.getElem?_take, hget]
  simp

theorem Good.upTo_ne_nil (ha : a ∈ chain) : upTo chain a ≠ [] := by
  intro hnil
  have := hG.getLast_upTo ha
  rw [hnil] at this
  cases this

theorem Good.head_reorged (ha : a ∈ chain) : (reorged chain a l).head? = chain.head? := by
  rw [reorged, List.head?_append_of_ne_nil _ (hG.upTo_ne_nil ha), upTo, List.head?_take]
  simp

variable (hf : ForkAt S chain t a l)
include hf

theorem Good.stored_reorged : ∀ x ∈ reorged chain a l, S.store.blocks[x.1]? = some x.2 := by
  intro x hx
  rcases List.mem_append.mp hx with hx | hx
  · exact hG.canonical.stored x (List.mem_of_mem_take hx)
  · exact hf.down.lookup_of_mem (List.mem_reverse.mp hx)

theorem Good.ascending_reorged : Ascending parentOf (reorged chain a l) := by
  obtain ⟨hbr, -⟩ := hf.down.ascending a.2
  have hlow : Ascending parentOf (upTo chain a) := List.IsChain.take hG.canonical.ascending _
  refine List.isChain_append.mpr ⟨hlow, hbr.tail, ?_⟩
  intro x hx y hy
  obtain rfl := Option.some.inj ((hG.getLast_upTo hf.mem).symm.trans hx)
  exact (List.isChain_cons.mp hbr).1 y hy

theorem Good.getLast_reorged {header : BlockHeader}
    (hsto : S.store.blocks[t]? = some header) : (reorged chain a l).getLast? = some (t, header) := by
  obtain ⟨-, hlast⟩ := hf.down.ascending a.2
  have hmem := hG.stored_reorged hf
  have hsame : (reorged chain a l).getLast? = (a :: l.reverse).getLast? := by
    rw [reorged, List.getLast?_append, hG.getLast_upTo hf.mem, List.getLast?_cons]
    cases l.reverse.getLast? <;> rfl
  rw [← hsame] at hlast
  obtain ⟨x, hx, rfl⟩ := Option.map_eq_some_iff.mp hlast
  have := hmem x (List.mem_of_getLast? hx)
  rw [hsto, Option.some.injEq] at this
  rw [hx, this]

theorem Good.height_reorged {k : Nat}
    {x : Hash256 × BlockHeader} (hx : (reorged chain a l)[k]? = some x) : x.2.height.toNat = k := by
  refine height_of_ascending X hG.storeOk (hG.ascending_reorged hf) (hG.stored_reorged hf) ?_ hx
  intro y hy
  rw [hG.head_reorged hf.mem] at hy
  exact hG.canonical.genesis y hy

theorem Good.height_branch (i : Nat) (x : Hash256 × BlockHeader) (hx : l.reverse[i]? = some x) :
    x.2.height.toNat = a.2.height.toNat + 1 + i := by
  refine hG.height_reorged hf ?_
  have hlen := hG.length_upTo hf.mem
  rw [reorged, List.getElem?_append_right (by omega), hlen, Nat.add_sub_cancel_left, hx]

theorem Good.heights_branch : l.reverse.map (·.2.height.toNat) = List.range' (a.2.height.toNat + 1) l.length := by
  refine List.ext_getElem? fun i => ?_
  rw [List.getElem?_map]
  rcases Nat.lt_or_ge i l.length with hlt | hge
  · have hlt' : i < l.reverse.length := by rwa [List.length_reverse]
    have hx := List.getElem?_eq_getElem hlt'
    rw [hx, Option.map_some, hG.height_branch hf i _ hx, List.getElem?_range' hlt]
    simp
  · rw [List.getElem?_eq_none (by rwa [List.length_reverse]), List.getElem?_eq_none (by simpa using hge)]
    rfl

omit hf

omit hG

theorem BlocksOf.map_headers {l : List (Hash256 × BlockHeader)} (h : BlocksOf X S l blocks) :
    (blocks.map fun hb => (hb.1, hb.2.header)) = l := by
  induction h with
  | nil => rfl
  | cons hx _ ih => rw [List.map_cons, ih, hx.header, hx.hash]

/-- **The height index after a promotion** describes the new chain. -/
theorem Good.buildHeightUpdates_spec (hG : Good X S chain) (hf : ForkAt S chain t a l)
    {conn : List (Hash256 × Block)} (hconn : BlocksOf X S l.reverse conn) (k : Nat) :
    (applyUpdates S.store.heightIndex (buildHeightUpdates a.2.height.toNat S.tipHeight conn))[k]? =
      (reorged chain a l)[k]?.map Prod.fst := by
  have hle := hG.height_le_tip hf.mem
  have hlen := hG.length_chain
  have hlenUp := hG.length_upTo hf.mem
  have hnd : ((l.reverse.map fun x => (x.2.height.toNat, x.1)).map Prod.fst).Nodup := by
    rw [List.map_map]
    change (l.reverse.map (·.2.height.toNat)).Nodup
    rw [hG.heights_branch hf]
    exact List.nodup_range'
  have hheights : conn.map (fun hb => (hb.2.header.height.toNat, hb.1)) =
      l.reverse.map fun x => (x.2.height.toNat, x.1) := by
    rw [← hconn.map_headers, List.map_map]
    rfl
  -- the pending index: branch blocks in front, cleared heights behind
  have hflush : (applyUpdates S.store.heightIndex (buildHeightUpdates a.2.height.toNat S.tipHeight conn))[k]? =
      ((l.reverse.map fun x => (x.2.height.toNat, x.1)).lookup k).or
        (if k ∈ List.range' (a.2.height.toNat + 1) (S.tipHeight - a.2.height.toNat) then none
          else S.store.heightIndex[k]?) := by
    unfold buildHeightUpdates
    rw [getElem?_applyUpdates_overlay (List.Sublist.refl _) (fun _ _ hmem hnot => absurd hmem hnot),
      ← List.foldl_map (f := fun hb : Hash256 × Block => (hb.2.header.height.toNat, hb.1))
        (g := fun (o : Table Nat (Option Hash256)) kv => o.insert kv.1 (some kv.2)), hheights,
      view_foldl_write hnd, view_foldl_insert, view_empty]
  rw [hflush, lookup_heights (hG.height_branch hf), hG.canonical.index, reorged]
  rcases Nat.lt_or_ge k (a.2.height.toNat + 1) with hlow | hhigh
  · -- at or below the fork point nothing changes
    have hout : k ∉ List.range' (a.2.height.toNat + 1) (S.tipHeight - a.2.height.toNat) := by
      rw [List.mem_range'_1]
      omega
    rw [if_pos hlow, if_neg hout, List.getElem?_append_left (by omega), upTo, List.getElem?_take, if_pos hlow,
      Option.none_or]
  · -- above it, the branch or nothing
    have hrest : (if k ∈ List.range' (a.2.height.toNat + 1) (S.tipHeight - a.2.height.toNat) then none
        else chain[k]?.map Prod.fst) = none := by
      by_cases hin : k ∈ List.range' (a.2.height.toNat + 1) (S.tipHeight - a.2.height.toNat)
      · rw [if_pos hin]
      · rw [List.mem_range'_1] at hin
        rw [if_neg (by rwa [List.mem_range'_1]), List.getElem?_eq_none (by omega)]
        rfl
    rw [if_neg (by omega), hrest, Option.or_none, List.getElem?_append_right (by omega), hlenUp]

end Fork

/-! ## The promotion -/

/-- The UTXO map after the disconnects of a promotion. -/
def undoneUtxos (S : ChainState) (base : List (Hash256 × BlockHeader)) (disc : List (Hash256 × Block)) :
    Commitment → Option UtxoEntry :=
  Delta.undo (restored S base disc) (utxoChanges disc) (reads S.store.utxos)

/-- The kernel index of a list of stored blocks. -/
def kernelsOf (S : ChainState) (base : List (Hash256 × BlockHeader)) : Commitment → Option Hash256 :=
  Delta.replay noEntries (kernelDeltas (bodiesOf S.store base))

theorem not_firstRemoved_kernelChanges {excess : Commitment} :
    ¬ Delta.FirstRemoved excess (kernelChanges blocks) := by
  induction blocks with
  | nil => exact id
  | cons hb blocks ih =>
    rintro (hmem | ⟨-, hrest⟩)
    · cases hmem
    · exact ih hrest

variable {store : DomStore}

section Promotion

variable {t : Hash256} {now : UInt64} {header : BlockHeader} {a : Hash256 × BlockHeader}
variable {l : List (Hash256 × BlockHeader)} {disc conn : List (Hash256 × Block)}

variable (hP : Planned X S chain t now header a l disc conn)
include hP

theorem Planned.bodiesOf_chain : bodiesOf S.store chain = bodiesOf S.store (upTo chain a) ++ disc.map asBody := by
  rw [← hP.disconnect.bodiesOf_eq, ← bodiesOf_append, upTo_append_above]

theorem Planned.bodiesOf_reorged (hbods : store.blockBodies = S.store.blockBodies) :
    bodiesOf store (reorged chain a l) = bodiesOf S.store (upTo chain a) ++ conn.map asBody := by
  rw [← hP.connect.bodiesOf_eq, ← bodiesOf_append]
  exact bodiesOf_congr fun x _ => by rw [hbods]

theorem Planned.undo_kernels (hK : KernelsOk S chain) (restore : Commitment → Option Hash256) :
    Delta.undo restore (kernelChanges disc) (reads S.store.kernels) = kernelsOf S (upTo chain a) ∧
      Delta.Replayable noEntries (kernelDeltas (bodiesOf S.store (upTo chain a))) := by
  have hrds : reads S.store.kernels = Delta.replay (kernelsOf S (upTo chain a)) (kernelChanges disc) := by
    funext excess
    rw [reads, hK.kernels, hP.bodiesOf_chain, kernelDeltas, List.map_append, Delta.replay_append]
    rfl
  have hrepl := hK.replayable
  rw [hP.bodiesOf_chain, kernelDeltas, List.map_append, Delta.replayable_append] at hrepl
  refine ⟨?_, hrepl.1⟩
  rw [hrds]
  exact Delta.undo_replay hrepl.2 fun k hk => absurd hk not_firstRemoved_kernelChanges

omit hP

theorem Good.disconnected_views (hG : Good X S chain) (hP : Planned X S chain t now header a l disc conn) {o : Overlays}
    (h : disc.reverse.foldlM (applyDisconnect S.store a.2.height.toNat (disconnectIndex disc)) ⟨∅, ∅⟩ = .ok o) :
    o.utxoView S.store = undoneUtxos S (upTo chain a) disc ∧ o.kernelView S.store = kernelsOf S (upTo chain a) := by
  obtain ⟨hutxo, hker⟩ := hG.foldlM_applyDisconnect_spec hP.fork.mem hP.disconnect.shape h
  constructor
  · rw [hutxo, Overlays.utxoView, view_empty]
    rfl
  · rw [hker noEntries, Overlays.kernelView, view_empty]
    exact (hP.undo_kernels hG.kernelsOk _).1

theorem Good.reorgOverlays_spec (hG : Good X S chain) (hP : Planned X S chain t now header a l disc conn)
    {o : Overlays}
    (h : S.reorgOverlays ⟨header, a.2.height.toNat, disc.reverse, conn⟩ = .ok o) :
    AllConnectable S.coinbaseMaturity (undoneUtxos S (upTo chain a) disc) (kernelsOf S (upTo chain a)) conn ∧
      o.utxoView S.store = Delta.replay (undoneUtxos S (upTo chain a) disc) (utxoChanges conn) ∧
      o.kernelView S.store = Delta.replay (kernelsOf S (upTo chain a)) (kernelChanges conn) := by
  simp only [ChainState.reorgOverlays, bind_eq_ok] at h
  obtain ⟨o₁, hdisc, hconn⟩ := h
  obtain ⟨hutxo, hker⟩ := hG.disconnected_views hP hdisc
  have hspec := foldlM_applyConnect_spec hP.connect.shape hconn
  rwa [hutxo, hker] at hspec

theorem Good.reorgStore_tables (hG : Good X S chain) (hP : Planned X S chain t now header a l disc conn)
    (h : S.reorgStore t ⟨header, a.2.height.toNat, disc.reverse, conn⟩ = .ok store) :
    AllConnectable S.coinbaseMaturity (undoneUtxos S (upTo chain a) disc) (kernelsOf S (upTo chain a)) conn ∧
      reads store.utxos = Delta.replay (undoneUtxos S (upTo chain a) disc) (utxoChanges conn) ∧
      reads store.kernels = Delta.replay (kernelsOf S (upTo chain a)) (kernelChanges conn) ∧
      (∀ k : Nat, store.heightIndex[k]? = (reorged chain a l)[k]?.map Prod.fst) ∧
      store.chainTip = some t ∧ store.blocks = S.store.blocks ∧ store.blockBodies = S.store.blockBodies := by
  simp only [ChainState.reorgStore, inversion] at h
  obtain ⟨o, ho, updates, hups, rfl⟩ := h
  obtain ⟨hconn, hutxo, hker⟩ := hG.reorgOverlays_spec hP ho
  refine ⟨hconn, ?_, ?_, hG.buildHeightUpdates_spec hP.fork hP.connect, rfl, rfl, rfl⟩
  · rw [← hutxo]
    exact funext (buildUtxoUpdates_spec hups)
  · rw [← hker]
    exact funext buildKernelUpdates_spec

/-- **After a promotion the branch is canonical.** -/
theorem Good.reorg (hG : Good X S chain) (hP : Planned X S chain t now header a l disc conn)
    (h : S.reorgStore t ⟨header, a.2.height.toNat, disc.reverse, conn⟩ = .ok store) :
    Good X (S.tipMoved store t header) (reorged chain a l) := by
  obtain ⟨hconn, -, hkers, hidx, htip, hblks, hbods⟩ := hG.reorgStore_tables hP h
  have hstoreOk : StoreOk X S.networkMagic (S.chainId X) store := by
    refine ⟨?_, ?_, ?_, ?_, ?_, ?_⟩
    all_goals simp only [hblks, hbods]
    · exact hG.storeOk.ranked
    · exact hG.storeOk.work
    · exact hG.storeOk.headerSyntax
    · exact hG.storeOk.ident
    · exact hG.storeOk.body
    · exact hG.storeOk.header
  have hbodo := hP.bodiesOf_reorged hbods
  refine ⟨hstoreOk, ⟨hidx, ?_, hG.ascending_reorged hP.fork, ?_, ?_, htip, ?_⟩, ⟨?_, ?_⟩⟩
  · intro x hx
    simp only [ChainState.tipMoved, hblks]
    exact hG.stored_reorged hP.fork x hx
  · intro x hx
    rw [hG.head_reorged hP.fork.mem] at hx
    exact hG.canonical.genesis x hx
  · exact ⟨(t, header), hG.getLast_reorged hP.fork hP.stored, rfl, rfl, rfl⟩
  · intro k header' hread hzero
    simp only [ChainState.tipMoved, hblks] at hread
    rw [hG.head_reorged hP.fork.mem]
    exact hG.canonical.root hread hzero
  · simp only [ChainState.tipMoved, hbodo, kernelDeltas, List.map_append]
    exact Delta.replayable_append.mpr
      ⟨(hP.undo_kernels hG.kernelsOk noEntries).2, hconn.replayable.2⟩
  · intro excess
    simp only [ChainState.tipMoved, hbodo, kernelDeltas, List.map_append, Delta.replay_append]
    exact congrFun hkers excess

end Promotion

end DomProtocol
