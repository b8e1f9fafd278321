import Mathlib.Tactic.Common

/-!
# `Lib.Reach` — states reached by guarded actions

A run starts in an initial state and takes actions, each of which meets a guard in the state it is taken in.
-/

namespace Lib

variable {σ α : Type} {init : σ → Prop} {guard guard' : σ → α → Prop} {next : σ → α → σ}

/-- The states reached from `init` by actions that meet `guard`. -/
inductive Reach (init : σ → Prop) (guard : σ → α → Prop) (next : σ → α → σ) : σ → Prop where
  | start {s : σ} (h : init s) : Reach init guard next s
  | step {s : σ} (h : Reach init guard next s) (a : α) (hguard : guard s a) : Reach init guard next (next s a)

namespace Reach

variable {s : σ}

/-- **Invariant rule.**  What holds initially and is kept by every guarded action holds in every state reached. -/
theorem invariant {P : σ → Prop} (hinit : ∀ s, init s → P s) (hstep : ∀ s a, P s → guard s a → P (next s a))
    (h : Reach init guard next s) : P s := by
  induction h with
  | start hs => exact hinit _ hs
  | step _ a hgd ih => exact hstep _ a ih hgd

/-- Weaker guards reach more. -/
theorem mono (hgd : ∀ s a, guard s a → guard' s a) (h : Reach init guard next s) :
    Reach init guard' next s := by
  induction h with
  | start hs => exact .start hs
  | step _ a hg ih => exact .step ih a (hgd _ a hg)

/-- A list of actions that meet the guard in every state can be taken one after the other. -/
theorem foldl {actions : List α} (hgd : ∀ a ∈ actions, ∀ s, guard s a) (h : Reach init guard next s) :
    Reach init guard next (actions.foldl next s) := by
  induction actions generalizing s with
  | nil => exact h
  | cons a rest ih =>
    obtain ⟨hfst, hrest⟩ := List.forall_mem_cons.mp hgd
    exact ih hrest (.step h a (hfst s))

end Reach

/-! ## Runs with their history -/

/-- One action with the states before and after it. -/
structure Step (σ α : Type) where
  before : σ
  action : α
  after : σ

/-- A state and the steps that led to it, latest first. -/
structure Recorded (σ α : Type) where
  state : σ
  history : List (Step σ α)

namespace Recorded

def record (next : σ → α → σ) (r : Recorded σ α) (a : α) : Recorded σ α :=
  ⟨next r.state a, ⟨r.state, a, next r.state a⟩ :: r.history⟩

/-- The runs of a machine with their history. -/
def Run (init : σ → Prop) (guard : σ → α → Prop) (next : σ → α → σ) : Recorded σ α → Prop :=
  Reach (fun r => init r.state ∧ r.history = []) (fun r a => guard r.state a) (record next)

variable {r : Recorded σ α} {I F : σ → Prop} {Q : Step σ α → Prop} {p : Step σ α → Bool}

theorem Run.start {s : σ} (h : init s) : Run init guard next ⟨s, []⟩ := Reach.start ⟨h, rfl⟩

theorem Run.step (h : Run init guard next r) {a : α} (hgd : guard r.state a) : Run init guard next (record next r a) :=
  Reach.step h a hgd

/-- **Invariant rule with steps.**  What every step from a state of the invariant satisfies, every step of a run does. -/
theorem invariant (hinit : ∀ s, init s → I s)
    (hstep : ∀ s a, I s → guard s a → I (next s a) ∧ Q ⟨s, a, next s a⟩) (h : Run init guard next r) :
    I r.state ∧ ∀ t ∈ r.history, Q t := by
  refine Reach.invariant (P := fun r => I r.state ∧ ∀ t ∈ r.history, Q t) ?_ ?_ h
  · rintro r ⟨hs, hhist⟩
    exact ⟨hinit _ hs, hhist ▸ fun _ hmem => (List.not_mem_nil hmem).elim⟩
  · rintro r a ⟨hI, hQ⟩ hgd
    obtain ⟨hI', hlast⟩ := hstep r.state a hI hgd
    exact ⟨hI', List.forall_mem_cons.mpr ⟨hlast, hQ⟩⟩

/-- **Once.**  A kind of step that sets a flag which nothing clears is taken at most once. -/
theorem countP_le_one (hinit : ∀ s, init s → I s) (hstep : ∀ s a, I s → guard s a → I (next s a) ∧ (F s → F (next s a)) ∧
      (p ⟨s, a, next s a⟩ = true → ¬ F s ∧ F (next s a))) (h : Run init guard next r) : r.history.countP p ≤ 1 := by
  -- after the step the flag is set, so there is no second one
  refine (Reach.invariant
    (P := fun r => I r.state ∧ r.history.countP p ≤ 1 ∧ (r.history.countP p ≠ 0 → F r.state)) ?_ ?_ h).2.1
  · rintro r ⟨hs, hhist⟩
    rw [hhist]
    exact ⟨hinit _ hs, Nat.zero_le _, fun hne => absurd rfl hne⟩
  · rintro r a ⟨hI, hle, hflag⟩ hgd
    obtain ⟨hI', hkps, hsets⟩ := hstep r.state a hI hgd
    refine ⟨hI', ?_⟩
    by_cases hp : p ⟨r.state, a, next r.state a⟩ = true
    · obtain ⟨hclr, hset⟩ := hsets hp
      have hnone : r.history.countP p = 0 := by
        by_contra hne
        exact hclr (hflag hne)
      rw [record, List.countP_cons_of_pos hp, hnone]
      exact ⟨Nat.le_refl _, fun _ => hset⟩
    · rw [record, List.countP_cons_of_neg hp]
      exact ⟨hle, fun hne => hkps (hflag hne)⟩

end Recorded

end Lib
