import Mathlib.Data.List.Basic
import Mathlib.Data.List.Induction
import Mathlib.Logic.Function.Basic
import Mathlib.Tactic.Common

/-!
# `Lib.Delta` — change sets over a keyed map, replay and undo

A change set removes keys and adds fresh ones.  `Delta.Applicable` says when it fits a map; `replay` applies
a list of them in order and `Replayable` says that each one fits when its turn comes.  Undoing a list walks
it backwards, dropping what was added and writing `restore k` for what was removed.  `undo_replay` says
exactly what `restore` has to get right: the keys whose *first* change in the list is a removal.
-/

namespace Lib

/-- A change set: keys that disappear and entries that appear. -/
structure Delta (K V : Type) where
  removed : List K
  added : List (K × V)

namespace Delta

variable {K V : Type}

def addedKeys (d : Delta K V) : List K := d.added.map Prod.fst

/-- A change set fits a map: what it removes is there once, what it adds is new. -/
structure Applicable (m : K → Option V) (d : Delta K V) : Prop where
  removed_nodup : d.removed.Nodup
  removed_present : ∀ k ∈ d.removed, m k ≠ none
  added_nodup : d.addedKeys.Nodup
  added_absent : ∀ k ∈ d.addedKeys, m k = none

variable [DecidableEq K]

def apply (m : K → Option V) (d : Delta K V) (k : K) : Option V :=
  match d.added.lookup k with
  | some v => some v
  | none => if k ∈ d.removed then none else m k

theorem apply_eq_or (m : K → Option V) (d : Delta K V) (k : K) :
    d.apply m k = (d.added.lookup k).or (if k ∈ d.removed then none else m k) := by
  unfold apply
  cases d.added.lookup k <;> rfl

variable {d : Delta K V} {k : K}

theorem lookup_eq_none : d.added.lookup k = none ↔ k ∉ d.addedKeys := by
  rw [List.lookup_eq_none_iff, addedKeys, List.mem_map]
  constructor
  · rintro h ⟨p, hp, rfl⟩
    simpa using h p hp
  · intro h p hp
    have hne : k ≠ p.1 := fun hkp => h ⟨p, hp, hkp.symm⟩
    simpa using hne

theorem exists_lookup (h : k ∈ d.addedKeys) : ∃ v, d.added.lookup k = some v := by
  rw [← Option.ne_none_iff_exists']
  exact fun hnone => lookup_eq_none.mp hnone h

variable {v : V}

theorem mem_addedKeys_of_lookup (h : d.added.lookup k = some v) :
    k ∈ d.addedKeys := by
  by_contra hk
  rw [lookup_eq_none.mpr hk] at h
  cases h

variable {m : K → Option V}

/-- What is there and was not added was there before. -/
theorem of_apply_eq_some (hlook : d.added.lookup k = none) (h : d.apply m k = some v) : m k = some v := by
  rw [apply_eq_or, hlook, Option.none_or] at h
  split at h
  · cases h
  · exact h

theorem apply_of_lookup (h : d.added.lookup k = some v) : d.apply m k = some v := by
  simp [apply, h]

theorem apply_of_removed (hk : k ∉ d.addedKeys) (h : k ∈ d.removed) : d.apply m k = none := by
  simp [apply, lookup_eq_none.mpr hk, h]

theorem apply_of_untouched (hk : k ∉ d.addedKeys) (h : k ∉ d.removed) : d.apply m k = m k := by
  simp [apply, lookup_eq_none.mpr hk, h]

/-! ## Replay -/

def replay (m : K → Option V) (ds : List (Delta K V)) : K → Option V := ds.foldl apply m

/-- Every change set fits when its turn comes. -/
def Replayable : (K → Option V) → List (Delta K V) → Prop
  | _, [] => True
  | m, d :: ds => d.Applicable m ∧ Replayable (d.apply m) ds

@[simp] theorem replay_nil (m : K → Option V) : replay m [] = m := rfl

@[simp] theorem replay_cons (m : K → Option V) (d : Delta K V) (ds : List (Delta K V)) :
    replay m (d :: ds) = replay (d.apply m) ds := rfl

theorem replay_append (m : K → Option V) (ds es : List (Delta K V)) :
    replay m (ds ++ es) = replay (replay m ds) es := List.foldl_append

variable {ds : List (Delta K V)}

theorem Replayable.added_nodup (h : Replayable m ds) :
    ∀ d ∈ ds, d.addedKeys.Nodup := by
  induction ds generalizing m with
  | nil => simp
  | cons d ds ih => exact List.forall_mem_cons.mpr ⟨h.1.added_nodup, ih h.2⟩

theorem replayable_append {es : List (Delta K V)} :
    Replayable m (ds ++ es) ↔ Replayable m ds ∧ Replayable (replay m ds) es := by
  induction ds generalizing m with
  | nil => simp [Replayable]
  | cons d ds ih => simp [Replayable, ih, and_assoc]

theorem replayable_concat : Replayable m (ds ++ [d]) ↔ Replayable m ds ∧ d.Applicable (replay m ds) := by
  simp [replayable_append, Replayable]

/-! ## Merging -/

omit [DecidableEq K] in
def merge (ds : List (Delta K V)) : Delta K V := ⟨ds.flatMap (·.removed), ds.flatMap (·.added)⟩

omit [DecidableEq K] in
theorem mem_addedKeys_merge :
    k ∈ (merge ds).addedKeys ↔ ∃ d ∈ ds, k ∈ d.addedKeys := by
  simp only [addedKeys, merge, List.map_flatMap, List.mem_flatMap]

/-- The first change set of an applicable merge applies, and the rest does after it. -/
theorem Applicable.of_merge_cons (h : (merge (d :: ds)).Applicable m) :
    d.Applicable m ∧ (merge ds).Applicable (d.apply m) := by
  have hrmv : (d.removed ++ (merge ds).removed).Nodup := h.removed_nodup
  have hadd : (d.addedKeys ++ (merge ds).addedKeys).Nodup := by
    have := h.added_nodup
    simpa [addedKeys, merge] using this
  have hpres : ∀ k ∈ d.removed ++ (merge ds).removed, m k ≠ none := h.removed_present
  have habs : ∀ k ∈ d.addedKeys ++ (merge ds).addedKeys, m k = none := by
    intro k hk
    refine h.added_absent k ?_
    simpa [addedKeys, merge] using hk
  obtain ⟨hrmv₁, hrmv₂, hdsj⟩ := List.nodup_append.mp hrmv
  obtain ⟨hadd₁, hadd₂, hdsj'⟩ := List.nodup_append.mp hadd
  refine ⟨⟨hrmv₁, fun k hk => hpres k (List.mem_append_left _ hk), hadd₁,
    fun k hk => habs k (List.mem_append_left _ hk)⟩, ⟨hrmv₂, ?_, hadd₂, ?_⟩⟩
  · intro k hk
    have hmk := hpres k (List.mem_append_right _ hk)
    have hknot : k ∉ d.addedKeys := fun hin => hmk (habs k (List.mem_append_left _ hin))
    have hrnot : k ∉ d.removed := fun hin => hdsj k hin k hk rfl
    rwa [apply_of_untouched hknot hrnot]
  · intro k hk
    have hmk := habs k (List.mem_append_right _ hk)
    have hknot : k ∉ d.addedKeys := fun hin => hdsj' k hin k hk rfl
    have hrnot : k ∉ d.removed := fun hin => hpres k (List.mem_append_left _ hin) hmk
    rwa [apply_of_untouched hknot hrnot]

/-- **A merge replays as its parts do.** -/
theorem Applicable.replay_of_merge (h : (merge ds).Applicable m) :
    Replayable m ds ∧ replay m ds = (merge ds).apply m := by
  induction ds generalizing m with
  | nil => exact ⟨trivial, funext fun k => rfl⟩
  | cons d ds ih =>
    obtain ⟨hd, hrest⟩ := h.of_merge_cons
    obtain ⟨hrepl, hrpl⟩ := ih hrest
    refine ⟨⟨hd, hrepl⟩, ?_⟩
    rw [replay_cons, hrpl]
    funext k
    have hlk : (merge (d :: ds)).added.lookup k = (d.added.lookup k).or ((merge ds).added.lookup k) := by
      simp [merge, List.lookup_append]
    have hrmv : k ∈ (merge (d :: ds)).removed ↔ k ∈ d.removed ∨ k ∈ (merge ds).removed := by
      simp [merge]
    cases hd' : d.added.lookup k with
    | some v =>
      -- what the first one adds, the rest neither adds nor removes
      have hin := mem_addedKeys_of_lookup hd'
      have hvalue := apply_of_lookup (m := m) hd'
      have hnot : k ∉ (merge ds).addedKeys := by
        intro hin'
        have := hrest.added_absent k hin'
        rw [hvalue] at this
        cases this
      have hkeep : k ∉ (merge ds).removed := by
        intro hin'
        refine h.removed_present k (hrmv.mpr (.inr hin')) (h.added_absent k ?_)
        exact mem_addedKeys_merge.mpr ⟨d, List.mem_cons_self, hin⟩
      rw [apply_of_untouched hnot hkeep, hvalue]
      exact (apply_of_lookup (by rw [hlk, hd']; rfl)).symm
    | none =>
      rw [apply_eq_or, apply_eq_or, apply_eq_or, hlk, hd', Option.none_or, Option.none_or]
      by_cases hr : k ∈ (merge ds).removed
      · rw [if_pos hr, if_pos (hrmv.mpr (.inr hr))]
      · by_cases hr' : k ∈ d.removed
        · rw [if_neg hr, if_pos hr', if_pos (hrmv.mpr (.inl hr'))]
        · rw [if_neg hr, if_neg hr', if_neg (fun hc => (hrmv.mp hc).elim hr' hr)]

/-! ## Creations -/

/-- The entry the first change set that adds `k` gives it. -/
def firstAdded (k : K) (ds : List (Delta K V)) : Option V := ds.findSome? fun d => d.added.lookup k

/-- The entry the last change set that adds `k` gives it. -/
def lastAdded (k : K) (ds : List (Delta K V)) : Option V := ds.reverse.findSome? fun d => d.added.lookup k

/-- A replayed entry is the one its last creation gave it. -/
theorem lastAdded_of_replay (h : replay (fun _ => none) ds k = some v) : lastAdded k ds = some v := by
  induction ds using List.reverseRecOn with
  | nil => simp at h
  | append_singleton ds d ih =>
    rw [replay_append, replay_cons, replay_nil] at h
    simp only [lastAdded, List.reverse_append, List.reverse_cons, List.reverse_nil, List.nil_append,
      List.singleton_append, List.findSome?_cons]
    cases hd : d.added.lookup k with
    | some w =>
      rw [apply_of_lookup hd] at h
      exact h
    | none => exact ih (of_apply_eq_some hd h)

/-- A key that no change set adds is new after the replay only if it was there before. -/
theorem replay_of_firstAdded_none (hnone : firstAdded k ds = none) (h : replay m ds k = some v) : m k = some v := by
  induction ds generalizing m with
  | nil => exact h
  | cons d ds ih =>
    simp only [firstAdded, List.findSome?_cons] at hnone
    cases hd : d.added.lookup k with
    | some w => simp [hd] at hnone
    | none =>
      simp only [hd] at hnone
      exact of_apply_eq_some hd (ih hnone h)

/-- An entry that nothing removes stays as it is. -/
theorem replay_of_present (hds : Replayable m ds) (hkeep : ∀ d ∈ ds, k ∉ d.removed) (h : m k = some v) :
    replay m ds k = some v := by
  induction ds generalizing m with
  | nil => exact h
  | cons d ds ih =>
    have hnot : k ∉ d.addedKeys := by
      intro hadd
      rw [hds.1.added_absent k hadd] at h
      cases h
    refine ih hds.2 (fun d' hd' => hkeep d' (List.mem_cons_of_mem _ hd')) ?_
    rwa [apply_of_untouched hnot (hkeep d List.mem_cons_self)]

/-- What is added and never removed is there in the end. -/
theorem replay_of_added (hds : Replayable m ds) (hkeep : ∀ d ∈ ds, k ∉ d.removed) (hd : d ∈ ds)
    (h : d.added.lookup k = some v) : replay m ds k = some v := by
  induction ds generalizing m with
  | nil => cases hd
  | cons d' ds ih =>
    have hrest : ∀ d ∈ ds, k ∉ d.removed := fun d hd => hkeep d (List.mem_cons_of_mem _ hd)
    rw [replay_cons]
    rcases List.mem_cons.mp hd with rfl | hmem
    · exact replay_of_present hds.2 hrest (apply_of_lookup h)
    · exact ih hds.2 hrest hmem

/-! ## Undo -/

/-- The first change of `k` in the list, if there is one, removes it. -/
def FirstRemoved (k : K) : List (Delta K V) → Prop
  | [] => False
  | d :: ds => k ∈ d.removed ∨ (k ∉ d.addedKeys ∧ FirstRemoved k ds)

instance FirstRemoved.decidable (k : K) : (ds : List (Delta K V)) → Decidable (FirstRemoved k ds)
  | [] => inferInstanceAs (Decidable False)
  | d :: ds =>
    have := FirstRemoved.decidable k ds
    inferInstanceAs (Decidable (k ∈ d.removed ∨ (k ∉ d.addedKeys ∧ FirstRemoved k ds)))

/-- The list removes a key that was there before, and adds it again later. -/
def Shadowed (k : K) (ds : List (Delta K V)) : Prop := FirstRemoved k ds ∧ (firstAdded k ds).isSome

instance (k : K) (ds : List (Delta K V)) : Decidable (Shadowed k ds) := inferInstanceAs (Decidable (_ ∧ _))

omit [DecidableEq K] in
/-- A key whose first change is a removal is removed. -/
theorem FirstRemoved.mem_removed (h : FirstRemoved k ds) : k ∈ ds.flatMap (·.removed) := by
  induction ds with
  | nil => exact h.elim
  | cons d ds ih =>
    rw [List.flatMap_cons, List.mem_append]
    rcases h with hr | ⟨-, hrest⟩
    · exact .inl hr
    · exact .inr (ih hrest)

/-- Take one change set back, writing `restore k` for each removed key. -/
def undoOne (restore : K → Option V) (d : Delta K V) (m : K → Option V) (k : K) : Option V :=
  if k ∈ d.removed then restore k
  else if k ∈ d.addedKeys then none
  else m k

/-- Take a list of change sets back, the last one first. -/
def undo (restore : K → Option V) (ds : List (Delta K V)) (m : K → Option V) : K → Option V :=
  ds.foldr (undoOne restore) m

/-- What undoing does to one key: its first change decides. -/
theorem undo_key (restore : K → Option V) (ds : List (Delta K V)) (m : K → Option V) (k : K) : undo restore ds m k =
      if FirstRemoved k ds then restore k else if (firstAdded k ds).isSome then none else m k := by
  induction ds with
  | nil => simp [undo, FirstRemoved, firstAdded]
  | cons d ds ih =>
    show undoOne restore d (undo restore ds m) k = _
    unfold undoOne
    by_cases hr : k ∈ d.removed
    · rw [if_pos hr, if_pos (.inl hr)]
    · rw [if_neg hr]
      by_cases ha : k ∈ d.addedKeys
      · obtain ⟨v, hv⟩ := exists_lookup ha
        have hnot : ¬ FirstRemoved k (d :: ds) := by
          rintro (h | ⟨h, -⟩)
          · exact hr h
          · exact h ha
        simp [ha, hnot, firstAdded, hv]
      · have hlook : d.added.lookup k = none := lookup_eq_none.mpr ha
        have hfst : FirstRemoved k (d :: ds) ↔ FirstRemoved k ds := by simp [FirstRemoved, hr, ha]
        have hadd : firstAdded k (d :: ds) = firstAdded k ds := by simp [firstAdded, hlook]
        rw [if_neg ha, ih, hadd]
        simp only [hfst]

/-- A key that is never removed keeps its entry, or has the one it is given. -/
theorem replay_of_not_removed (hds : Replayable m ds) (hkeep : ∀ d ∈ ds, k ∉ d.removed) :
    replay m ds k = (firstAdded k ds).or (m k) := by
  cases hadd : firstAdded k ds with
  | some v =>
    obtain ⟨d, hd, hlook⟩ := List.exists_of_findSome?_eq_some hadd
    rw [replay_of_added hds hkeep hd hlook]
    rfl
  | none =>
    rw [Option.none_or]
    cases hm : m k with
    | some v => exact replay_of_present hds hkeep hm
    | none =>
      rw [Option.eq_none_iff_forall_ne_some]
      intro v hv
      rw [replay_of_firstAdded_none hadd hv] at hm
      cases hm

/-- A key whose first change is a removal was there before. -/
theorem FirstRemoved.present (hds : Replayable m ds) (h : FirstRemoved k ds) : m k ≠ none := by
  induction ds generalizing m with
  | nil => exact h.elim
  | cons d ds ih =>
    by_cases hr : k ∈ d.removed
    · exact hds.1.removed_present k hr
    · obtain ⟨hk, htail⟩ := h.resolve_left hr
      have := ih hds.2 htail
      rwa [apply_of_untouched hk hr] at this

/-- **Undo inverts replay.**  Only the keys whose first change is a removal need their old value restored. -/
theorem undo_replay {restore : K → Option V} (hds : Replayable m ds)
    (hrst : ∀ k, FirstRemoved k ds → restore k = m k) :
    undo restore ds (replay m ds) = m := by
  funext k
  replace hrst := hrst k
  -- one key at a time: a change set that adds `k` hides what happens to it later
  induction ds generalizing m with
  | nil => rfl
  | cons d ds ih =>
    change undoOne restore d (undo restore ds (replay (d.apply m) ds)) k = m k
    unfold undoOne
    by_cases hr : k ∈ d.removed
    · rw [if_pos hr]
      exact hrst (.inl hr)
    · rw [if_neg hr]
      by_cases hk : k ∈ d.addedKeys
      · rw [if_pos hk, hds.1.added_absent k hk]
      · have huntouched := apply_of_untouched (m := m) hk hr
        rw [if_neg hk, ih hds.2, huntouched]
        intro h
        rw [huntouched]
        exact hrst (.inr ⟨hk, h⟩)

/-- What a list of change sets does to one key: nothing, or it fixes the outcome. -/
theorem replay_key_cases (k : K) (ds : List (Delta K V)) :
    (∀ m : K → Option V, replay m ds k = m k) ∨ ∃ o, ∀ m : K → Option V, replay m ds k = o := by
  induction ds with
  | nil => exact .inl fun _ => rfl
  | cons d ds ih =>
    rcases ih with hkeep | ⟨o, hfix⟩
    · cases hlook : d.added.lookup k with
      | some v => exact .inr ⟨some v, fun m => (hkeep _).trans (by simp [apply, hlook])⟩
      | none =>
        by_cases hr : k ∈ d.removed
        · exact .inr ⟨none, fun m => (hkeep _).trans (by simp [apply, hlook, hr])⟩
        · exact .inl fun m => (hkeep _).trans (by simp [apply, hlook, hr])
    · exact .inr ⟨o, fun m => hfix _⟩

/-- A present key that is added again was removed first. -/
theorem firstRemoved_of_present (hds : Replayable m ds) (hk : m k ≠ none) (hadded : firstAdded k ds ≠ none) :
    FirstRemoved k ds := by
  induction ds generalizing m with
  | nil => exact absurd rfl hadded
  | cons d ds ih =>
    have hnot : k ∉ d.addedKeys := fun hadd => hk (hds.1.added_absent k hadd)
    have hlook : d.added.lookup k = none := lookup_eq_none.mpr hnot
    by_cases hr : k ∈ d.removed
    · exact .inl hr
    · refine .inr ⟨hnot, ih hds.2 ?_ ?_⟩
      · simpa [apply, hlook, hr] using hk
      · simpa [firstAdded, hlook] using hadded

theorem firstAdded_eq_none : firstAdded k ds = none ↔ k ∉ ds.flatMap (·.addedKeys) := by
  simp only [firstAdded, List.findSome?_eq_none_iff, lookup_eq_none, List.mem_flatMap, not_exists, not_and]

/-- Without removals no key is added twice. -/
theorem Replayable.nodup_added (hds : Replayable m ds) (hkeep : ∀ d ∈ ds, d.removed = []) :
    (ds.flatMap (·.addedKeys)).Nodup := by
  induction ds generalizing m with
  | nil => exact List.nodup_nil
  | cons d ds ih =>
    have hrest : ∀ d ∈ ds, d.removed = [] := fun d hd => hkeep d (List.mem_cons_of_mem _ hd)
    rw [List.flatMap_cons, List.nodup_append]
    refine ⟨hds.1.added_nodup, ih hds.2 hrest, ?_⟩
    rintro k hk _ hlat rfl
    -- added by `d` and again later, the key would have to be removed in between
    obtain ⟨v, hlook⟩ := exists_lookup hk
    have hpres : d.apply m k ≠ none := by simp [apply_of_lookup hlook]
    have hfst := firstRemoved_of_present hds.2 hpres (fun h => firstAdded_eq_none.mp h hlat)
    obtain ⟨d', hd', hr⟩ := List.mem_flatMap.mp hfst.mem_removed
    rw [hrest d' hd'] at hr
    cases hr

/-- Without removals the replay holds exactly what was added. -/
theorem Replayable.replay_eq_some (hds : Replayable (fun _ => none) ds) (hkeep : ∀ d ∈ ds, d.removed = []) :
    replay (fun _ => none) ds k = some v ↔ ∃ d ∈ ds, d.added.lookup k = some v := by
  have hkeep' : ∀ d ∈ ds, k ∉ d.removed := fun d hd => by simp [hkeep d hd]
  constructor
  · intro h
    obtain ⟨d, hd, hlook⟩ := List.exists_of_findSome?_eq_some (lastAdded_of_replay h)
    exact ⟨d, List.mem_reverse.mp hd, hlook⟩
  · rintro ⟨d, hd, hlook⟩
    exact replay_of_added hds hkeep' hd hlook

/-- A key that is not shadowed keeps its value as long as it is there. -/
theorem replay_of_not_shadowed (hds : Replayable m ds) {w : V} (hv : m k = some v) (hw : replay m ds k = some w)
    (hcln : ¬ Shadowed k ds) : v = w := by
  by_cases hnone : firstAdded k ds = none
  · exact Option.some.inj (hv.symm.trans (replay_of_firstAdded_none hnone hw))
  · refine absurd ⟨firstRemoved_of_present hds ?_ hnone, Option.isSome_iff_ne_none.mpr hnone⟩ hcln
    simp [hv]

/-- A removed key was there before the list or was added inside it. -/
theorem removed_origin (hds : Replayable m ds) (hd : d ∈ ds) (hk : k ∈ d.removed) :
    m k ≠ none ∨ firstAdded k ds ≠ none := by
  induction ds generalizing m with
  | nil => cases hd
  | cons d' ds ih =>
    cases hlook : d'.added.lookup k with
    | some v => exact .inr (by simp [firstAdded, hlook])
    | none =>
      have hknot := lookup_eq_none.mp hlook
      rcases List.mem_cons.mp hd with rfl | hmem
      · exact .inl (hds.1.removed_present k hk)
      · rcases ih hds.2 hmem with hpres | hadd
        · left
          by_cases hr : k ∈ d'.removed
          · exact hds.1.removed_present k hr
          · rwa [apply_of_untouched hknot hr] at hpres
        · right
          simpa [firstAdded, hlook] using hadd

end Delta

end Lib
