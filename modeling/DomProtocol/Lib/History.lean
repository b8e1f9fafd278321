import Mathlib.Data.List.Infix
import Mathlib.Tactic.Common

/-!
# `Lib.History` — partial machines read against their histories

A machine that accepts or rejects actions is run on the list of the actions it has accepted, the latest first.
What its state means is then a relation between that list and the state.
-/

namespace Lib

variable {σ α : Type} {step : σ → α → Option σ} {init : σ}

/-- The state after the accepted actions of a history, latest first; `none` when one of them is rejected. -/
def after (step : σ → α → Option σ) (init : σ) : List α → Option σ
  | [] => some init
  | a :: past => (after step init past).bind fun s => step s a

variable {past : List α}

theorem after_cons_eq_some {a : α} {s' : σ} :
    after step init (a :: past) = some s' ↔ ∃ s, after step init past = some s ∧ step s a = some s' :=
  Option.bind_eq_some_iff

/-- **Invariant rule.**  A relation between history and state that holds at the start and is kept by every
    accepted action holds after every history. -/
theorem after_invariant {P : List α → σ → Prop} (hinit : P [] init)
    (hstep : ∀ past s a s', P past s → step s a = some s' → P (a :: past) s') {s : σ}
    (h : after step init past = some s) : P past s := by
  induction past generalizing s with
  | nil =>
    cases h
    exact hinit
  | cons a past ih =>
    obtain ⟨s₀, hs₀, hstep₀⟩ := after_cons_eq_some.mp h
    exact hstep past s₀ a s (ih hs₀) hstep₀

/-- **Exact guards.**  When, from states where `P` holds, `G` is exactly what an action needs for `P` to hold
    after it, the histories that keep `P` throughout are those whose every action meets `G`. -/
theorem after_forall_iff {I P : List α → σ → Prop} {G : List α → σ → α → Prop}
    (hinv : ∀ {past s}, after step init past = some s → I past s) (hinit : P [] init)
    (hstep : ∀ past s a s', I past s → P past s → step s a = some s' → (P (a :: past) s' ↔ G past s a)) {s : σ}
    (h : after step init past = some s) :
    (∀ recent s', recent <:+ past → after step init recent = some s' → P recent s') ↔
      ∀ a before s', a :: before <:+ past → after step init before = some s' → G before s' a := by
  induction past generalizing s with
  | nil =>
    constructor
    · intro _ a before _ hsuf
      exact absurd (List.suffix_nil.mp hsuf) (List.cons_ne_nil a before)
    · intro _ recent s' hsuf hrct
      cases List.suffix_nil.mp hsuf
      cases hrct
      exact hinit
  | cons b past ih =>
    obtain ⟨s₀, hs₀, hstep₀⟩ := after_cons_eq_some.mp h
    constructor
    · intro hP a before s' hsuf hbef
      rcases List.suffix_cons_iff.mp hsuf with heq | hsuf
      · obtain ⟨rfl, rfl⟩ := List.cons.inj heq
        rw [hs₀] at hbef
        cases hbef
        have hpast : P before s₀ := hP before s₀ (List.suffix_cons ..) hs₀
        exact (hstep before s₀ a s (hinv hs₀) hpast hstep₀).mp (hP _ s (List.suffix_refl _) h)
      · refine (ih hs₀).mp ?_ a before s' hsuf hbef
        exact fun recent s'' hrct => hP recent s'' (hrct.trans (List.suffix_cons ..))
    · intro hG
      have hpast := (ih hs₀).mpr fun a before s' hsuf =>
        hG a before s' (hsuf.trans (List.suffix_cons ..))
      intro recent s' hsuf hrct
      rcases List.suffix_cons_iff.mp hsuf with rfl | hsuf
      · rw [h] at hrct
        cases hrct
        exact (hstep past s₀ b s (hinv hs₀) (hpast past s₀ (List.suffix_refl _) hs₀) hstep₀).mpr
          (hG b past s₀ (List.suffix_refl _) hs₀)
      · exact hpast recent s' hsuf hrct

end Lib
