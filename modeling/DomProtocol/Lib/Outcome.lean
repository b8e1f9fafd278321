import Mathlib.Data.List.Basic
import Mathlib.Data.List.Forall2
import Mathlib.Logic.Unique
import Mathlib.Tactic.Common

/-!
# `Lib.Outcome` — fallible computations and their inversion

Checks that may fail are written in `Except ε`.  Early returns of the form "if this is bad, fail with
that error" are `rejectIf`, and turning a missing value into an error is `okOr`.  The `_eq_ok` lemmas
below invert a computation that succeeded one construct at a time, so a proof about a caller never
unfolds the monad.
-/

namespace Lib

variable {ε α β : Type _}

/-- Fail with `e` when `bad` holds, otherwise go on. -/
def rejectIf (bad : Prop) [Decidable bad] (e : ε) : Except ε Unit :=
  if bad then .error e else .ok ()

/-- The value of an optional result, or the error `e` when there is none. -/
def okOr (o : Option α) (e : ε) : Except ε α :=
  match o with
  | some a => .ok a
  | none => .error e

variable {x : Except ε α} {f : α → Except ε β} {b : β}

@[simp] theorem bind_eq_ok :
    (x >>= f) = .ok b ↔ ∃ a, x = .ok a ∧ f a = .ok b := by
  cases x <;> simp [Bind.bind, Except.bind]

/-- A check returns nothing, so there is nothing to choose. -/
@[simp] theorem exists_unit {p : Unit → Prop} : (∃ u, p u) ↔ p () := Unique.exists_iff

@[simp] theorem ok_bind (a : α) (f : α → Except ε β) : ((.ok a : Except ε α) >>= f) = f a := rfl

@[simp] theorem error_bind (e : ε) (f : α → Except ε β) :
    ((.error e : Except ε α) >>= f) = .error e := rfl

variable {a : α}

@[simp] theorem pure_eq_ok {b : α} : (pure a : Except ε α) = .ok b ↔ a = b := by
  simp [pure, Except.pure]

variable {e : ε} {bad : Prop} {u : Unit}

@[simp] theorem rejectIf_eq_ok [Decidable bad] :
    rejectIf bad e = .ok u ↔ ¬ bad := by
  unfold rejectIf
  by_cases h : bad <;> simp [h]

variable {o : Option α}

@[simp] theorem okOr_eq_ok : okOr o e = .ok a ↔ o = some a := by
  cases o <;> simp [okOr]

@[simp] theorem map_eq_ok {f : α → β} :
    f <$> x = .ok b ↔ ∃ a, x = .ok a ∧ f a = b := by
  cases x <;> simp [Functor.map, Except.map]

@[simp] theorem mapError_eq_ok {ε' : Type _} {f : ε → ε'} :
    x.mapError f = .ok a ↔ x = .ok a := by
  cases x <;> simp [Except.mapError]

/-- The rules by which a computation of checks that succeeded is taken apart, as one list for `simp`. -/
theorem inversion :
    (∀ {ε α β : Type} {x : Except ε α} {f : α → Except ε β} {b : β}, (x >>= f) = .ok b ↔ ∃ a, x = .ok a ∧ f a = .ok b) ∧
    (∀ {p : Unit → Prop}, (∃ u, p u) ↔ p ()) ∧
    (∀ {ε α : Type} {a b : α}, (pure a : Except ε α) = .ok b ↔ a = b) ∧
    (∀ {ε : Type} {e : ε} {bad : Prop} [Decidable bad] {u : Unit}, rejectIf bad e = .ok u ↔ ¬ bad) ∧
    (∀ {ε α : Type} {e : ε} {o : Option α} {a : α}, okOr o e = .ok a ↔ o = some a) ∧
    ∀ {ε ε' α : Type} {x : Except ε α} {f : ε → ε'} {a : α}, x.mapError f = .ok a ↔ x = .ok a :=
  ⟨bind_eq_ok, exists_unit, pure_eq_ok, rejectIf_eq_ok, okOr_eq_ok, mapError_eq_ok⟩

theorem bind_eq_error :
    (x >>= f) = .error e ↔ x = .error e ∨ ∃ a, x = .ok a ∧ f a = .error e := by
  cases x <;> simp [Bind.bind, Except.bind]

theorem map_eq_error {f : α → β} : f <$> x = .error e ↔ x = .error e := by
  cases x <;> simp [Functor.map, Except.map]

theorem rejectIf_eq_error [Decidable bad] {e' : ε} : rejectIf bad e = .error e' ↔ bad ∧ e = e' := by
  unfold rejectIf
  by_cases h : bad <;> simp [h]

theorem okOr_eq_error {e' : ε} : okOr o e = .error e' ↔ o = none ∧ e = e' := by
  cases o <;> simp [okOr]

theorem exists_error (h : x.isOk = false) : ∃ e, x = .error e := by
  cases x with
  | error e => exact ⟨e, rfl⟩
  | ok a => cases h

theorem exists_ok (h : x.isOk) : ∃ a, x = .ok a := by
  cases x with
  | error e => cases h
  | ok a => exact ⟨a, rfl⟩

@[simp] theorem toOption_eq_some : x.toOption = some a ↔ x = .ok a := by
  cases x <;> simp [Except.toOption]

theorem exists_of_toOption_any {p : α → Bool} (h : x.toOption.any p = true) :
    ∃ a, x = .ok a ∧ p a = true := by
  cases x with
  | error e => cases h
  | ok a => exact ⟨a, rfl, h⟩

variable {l : List α}

/-- A loop of checks succeeds exactly when every check does. -/
@[simp] theorem forM_eq_ok {f : α → Except ε Unit} :
    forM l f = .ok u ↔ ∀ x ∈ l, f x = .ok () := by
  induction l with
  | nil => simp
  | cons x xs ih => simp [ih]

variable {r : List β}

/-- A loop that computes a result for every element succeeds element by element. -/
theorem mapM_eq_ok :
    l.mapM f = .ok r ↔ List.Forall₂ (fun a b => f a = .ok b) l r := by
  induction l generalizing r with
  | nil =>
    rw [List.mapM_nil, pure_eq_ok, List.forall₂_nil_left_iff]
    exact eq_comm
  | cons x xs ih =>
    simp only [List.mapM_cons, bind_eq_ok, pure_eq_ok, List.forall₂_cons_left_iff]
    constructor
    · rintro ⟨b, hb, bs, hbs, rfl⟩
      exact ⟨b, bs, hb, ih.mp hbs, rfl⟩
    · rintro ⟨b, bs, hb, hbs, rfl⟩
      exact ⟨b, hb, bs, ih.mpr hbs, rfl⟩

theorem exists_forall₂ {R : α → β → Prop} (h : ∀ a ∈ l, ∃ b, R a b) : ∃ r, List.Forall₂ R l r := by
  induction l with
  | nil => exact ⟨[], .nil⟩
  | cons x xs ih =>
    obtain ⟨b, hb⟩ := h x List.mem_cons_self
    obtain ⟨bs, hbs⟩ := ih fun a ha => h a (List.mem_cons_of_mem _ ha)
    exact ⟨b :: bs, .cons hb hbs⟩

theorem exists_of_forall₂ {R : α → β → Prop} (h : List.Forall₂ R l r) (ha : a ∈ l) : ∃ b ∈ r, R a b := by
  induction h with
  | nil => cases ha
  | cons hab _ ih =>
    rcases List.mem_cons.mp ha with rfl | ha
    · exact ⟨_, List.mem_cons_self, hab⟩
    · obtain ⟨b, hb, hR⟩ := ih ha
      exact ⟨b, List.mem_cons_of_mem _ hb, hR⟩

theorem mapM_ok_of_forall (h : ∀ a ∈ l, ∃ b, f a = .ok b) : ∃ r, l.mapM f = .ok r := by
  simpa only [mapM_eq_ok] using exists_forall₂ h

theorem exists_of_mapM_eq_ok (h : l.mapM f = .ok r) (ha : a ∈ l) : ∃ b ∈ r, f a = .ok b :=
  exists_of_forall₂ (mapM_eq_ok.mp h) ha

/-- A loop that fails does so at one of the elements. -/
theorem exists_of_mapM_eq_error (h : l.mapM f = .error e) :
    ∃ a ∈ l, f a = .error e := by
  induction l with
  | nil => cases h
  | cons a l ih =>
    simp only [List.mapM_cons, bind_eq_error] at h
    obtain hfst | ⟨b, -, hrest | ⟨bs, -, hend⟩⟩ := h
    · exact ⟨a, List.mem_cons_self, hfst⟩
    · obtain ⟨a', ha', hfail⟩ := ih hrest
      exact ⟨a', List.mem_cons_of_mem _ ha', hfail⟩
    · cases hend

/-- **A loop of checked updates.**  When an update fails no later check but those of related elements, the loop succeeds
exactly when no two elements are related and all checks pass at the start. -/
theorem foldlM_eq_ok {σ : Type _} {f : σ → α → Except ε σ} {g : σ → α → σ} {P : σ → α → Prop} {R : α → α → Prop}
    (hstep : ∀ s a s', a ∈ l → (f s a = .ok s' ↔ P s a ∧ g s a = s'))
    (hkeep : ∀ s a b, P (g s a) b ↔ R a b ∧ P s b) {s s' : σ} :
    l.foldlM f s = .ok s' ↔ l.Pairwise R ∧ (∀ a ∈ l, P s a) ∧ l.foldl g s = s' := by
  induction l generalizing s with
  | nil => simp
  | cons a l ih =>
    have hrest := @ih fun s b s' hb => hstep s b s' (List.mem_cons_of_mem _ hb)
    simp only [List.foldlM_cons, bind_eq_ok, hstep _ a _ List.mem_cons_self, hrest, List.pairwise_cons,
      List.forall_mem_cons, List.foldl_cons]
    constructor
    · rintro ⟨_, ⟨ha, rfl⟩, hpw, hall, hs'⟩
      simp only [hkeep] at hall
      exact ⟨⟨fun b hb => (hall b hb).1, hpw⟩, ⟨ha, fun b hb => (hall b hb).2⟩, hs'⟩
    · rintro ⟨⟨hR, hpw⟩, ⟨ha, hall⟩, hs'⟩
      exact ⟨_, ⟨ha, rfl⟩, hpw, fun b hb => (hkeep _ _ _).mpr ⟨hR b hb, hall b hb⟩, hs'⟩

/-- A result of the loop is the result of one of the elements. -/
theorem mem_of_mapM_eq_ok (h : l.mapM f = .ok r) (b : β) :
    b ∈ r ↔ ∃ a ∈ l, f a = .ok b := by
  constructor
  · exact exists_of_forall₂ (R := fun b a => f a = .ok b) (mapM_eq_ok.mp h).flip
  · rintro ⟨a, ha, hab⟩
    obtain ⟨b', hb', hab'⟩ := exists_of_mapM_eq_ok h ha
    rwa [Except.ok.inj (hab.symm.trans hab')]

end Lib
