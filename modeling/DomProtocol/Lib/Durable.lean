import DomProtocol.Lib.Outcome

/-!
# `Lib.Durable` — programs that write durable state one transaction at a time

A program runs over a state and leaves behind every state a transaction of it made durable, so what a crash at
any point would find is part of what the program means.  A failed transaction rolls back; a failed program keeps
what its earlier transactions wrote.
-/

namespace Lib

/-- What a run shows: the states made durable on the way, the state it ends in and its result. -/
structure RunOf (σ ε α : Type) where
  visited : List σ
  final : σ
  result : Except ε α

/-- Programs over a durable state `σ` that may fail with `ε`. -/
def Durable (σ ε α : Type) : Type := σ → RunOf σ ε α

namespace Durable

variable {σ ε α β : Type}

/-- Go on with `f` when the first part succeeded, from the state it ended in. -/
def andThen (m : Durable σ ε α) (f : α → Durable σ ε β) : Durable σ ε β := fun s =>
  let first := m s
  match first.result with
  | .error e => ⟨first.visited, first.final, .error e⟩
  | .ok a =>
    let second := f a first.final
    ⟨first.visited ++ second.visited, second.final, second.result⟩

instance : Monad (Durable σ ε) where
  pure a := fun s => ⟨[], s, .ok a⟩
  bind := andThen

def fail (e : ε) : Durable σ ε α := fun s => ⟨[], s, .error e⟩

def query (f : σ → Except ε α) : Durable σ ε α := fun s => ⟨[], s, f s⟩

/-- One atomic transaction: all of it becomes durable, or nothing does. -/
def transact (f : σ → Except ε (α × σ)) : Durable σ ε α := fun s =>
  match f s with
  | .error e => ⟨[], s, .error e⟩
  | .ok (a, s') => ⟨[s'], s', .ok a⟩

@[simp] theorem run_pure (a : α) (s : σ) : (pure a : Durable σ ε α) s = ⟨[], s, .ok a⟩ := rfl

@[simp] theorem run_fail (e : ε) (s : σ) : (fail e : Durable σ ε α) s = ⟨[], s, .error e⟩ := rfl

@[simp] theorem run_query (f : σ → Except ε α) (s : σ) : query f s = ⟨[], s, f s⟩ := rfl

theorem run_transact_ok {f : σ → Except ε (α × σ)} {s s' : σ} {a : α} (h : f s = .ok (a, s')) :
    transact f s = ⟨[s'], s', .ok a⟩ := by
  simp [transact, h]

theorem run_transact_error {f : σ → Except ε (α × σ)} {s : σ} {e : ε} (h : f s = .error e) :
    transact f s = ⟨[], s, .error e⟩ := by
  simp [transact, h]

theorem run_bind_ok {m : Durable σ ε α} {f : α → Durable σ ε β} {s : σ} {a : α} (h : (m s).result = .ok a) :
    (m >>= f) s = ⟨(m s).visited ++ (f a (m s).final).visited, (f a (m s).final).final,
      (f a (m s).final).result⟩ := by
  simp only [Bind.bind, andThen, h]

theorem run_bind_error {m : Durable σ ε α} {f : α → Durable σ ε β} {s : σ} {e : ε} (h : (m s).result = .error e) :
    (m >>= f) s = ⟨(m s).visited, (m s).final, .error e⟩ := by
  simp only [Bind.bind, andThen, h]

/-- Programs in sequence can be bracketed either way. -/
instance : LawfulMonad (Durable σ ε) :=
  LawfulMonad.mk' (Durable σ ε)
    (by
      intro α m
      funext s
      show (m >>= pure) s = m s
      cases hr : (m s).result with
      | ok a =>
        rw [run_bind_ok hr]
        simp [← hr]
      | error e =>
        rw [run_bind_error hr]
        simp [← hr])
    (fun _ _ => rfl)
    (by
      intro α β γ m f g
      funext s
      cases hr : (m s).result with
      | error e =>
        rw [run_bind_error (m := m >>= f) (by rw [run_bind_error hr]), run_bind_error hr, run_bind_error hr]
      | ok a =>
        rw [run_bind_ok hr]
        cases hf : (f a (m s).final).result with
        | error e =>
          rw [run_bind_error (m := m >>= f) (by rw [run_bind_ok hr, hf]), run_bind_ok hr, run_bind_error hf]
        | ok b =>
          rw [run_bind_ok (m := m >>= f) (by rw [run_bind_ok hr, hf]), run_bind_ok hr, run_bind_ok hf]
          simp [List.append_assoc])

/-! ## Programs over part of a state -/

/-- Change the volatile part of a state: nothing becomes durable by it. -/
def modify (f : σ → σ) : Durable σ ε Unit := fun s => ⟨[], f s, .ok ()⟩

/-- Run a program on the part of the state that `get` reads and `set` writes. -/
def zoom {τ : Type} (get : σ → τ) (set : σ → τ → σ) (m : Durable τ ε α) : Durable σ ε α := fun s =>
  let out := m (get s)
  ⟨out.visited.map (set s), set s out.final, out.result⟩

/-- Run a program and go on with its result, whether or not it failed. -/
def attempt {δ : Type} (m : Durable σ ε α) : Durable σ δ (Except ε α) := fun s =>
  let out := m s
  ⟨out.visited, out.final, .ok out.result⟩

/-- The same program with its errors renamed. -/
def mapError {δ : Type} (f : ε → δ) (m : Durable σ ε α) : Durable σ δ α := fun s =>
  let out := m s
  ⟨out.visited, out.final, out.result.mapError f⟩

/-! ## What a program ensures -/

/-- From `s`, every state the program makes durable satisfies `I`, and its end satisfies `Q`. -/
def Ensures (m : Durable σ ε α) (s : σ) (I : σ → Prop) (Q : Except ε α → σ → Prop) : Prop :=
  (∀ s' ∈ (m s).visited, I s') ∧ Q (m s).result (m s).final

namespace Ensures

variable {m : Durable σ ε α} {f : α → Durable σ ε β} {s : σ} {I : σ → Prop}

variable {Q : Except ε α → σ → Prop}

theorem mono {Q' : Except ε α → σ → Prop} (h : m.Ensures s I Q) (hQ : ∀ r s', Q r s' → Q' r s') :
    m.Ensures s I Q' :=
  ⟨h.1, hQ _ _ h.2⟩

theorem pure {a : α} (h : Q (.ok a) s) :
    Durable.Ensures (Pure.pure a : Durable σ ε α) s I Q := by
  refine ⟨?_, h⟩
  intro s' hs'
  cases hs'

theorem fail {e : ε} (h : Q (.error e) s) : (fail e).Ensures s I Q := by
  refine ⟨?_, h⟩
  intro s' hs'
  cases hs'

theorem query {g : σ → Except ε α} (h : Q (g s) s) : (query g).Ensures s I Q := by
  refine ⟨?_, h⟩
  intro s' hs'
  cases hs'

theorem modify {g : σ → σ} {Q : Except ε Unit → σ → Prop} (h : Q (.ok ()) (g s)) :
    (modify g).Ensures s I Q := by
  refine ⟨?_, h⟩
  intro s' hs'
  cases hs'

/-- **Sequencing.**  The second part is ensured from wherever the first one succeeded. -/
theorem bind {Q : Except ε β → σ → Prop}
    (h : m.Ensures s I fun r s' => (∀ a, r = .ok a → (f a).Ensures s' I Q) ∧ ∀ e, r = .error e → Q (.error e) s') :
    (m >>= f).Ensures s I Q := by
  obtain ⟨hvis, hok, herr⟩ := h
  cases hr : (m s).result with
  | error e =>
    rw [Ensures, run_bind_error hr]
    exact ⟨hvis, herr e hr⟩
  | ok a =>
    obtain ⟨hvis', hend⟩ := hok a hr
    rw [Ensures, run_bind_ok hr]
    refine ⟨?_, hend⟩
    intro s' hs'
    rcases List.mem_append.mp hs' with hs' | hs'
    · exact hvis s' hs'
    · exact hvis' s' hs'

theorem attempt {δ : Type} {Q : Except δ (Except ε α) → σ → Prop} (h : m.Ensures s I fun r s' => Q (.ok r) s') :
    m.attempt.Ensures s I Q := h

theorem mapError {δ : Type} {g : ε → δ} {Q : Except δ α → σ → Prop}
    (h : m.Ensures s I fun r s' => Q (r.mapError g) s') : (m.mapError g).Ensures s I Q := h

theorem zoom {τ : Type} {get : σ → τ} {set : σ → τ → σ} {n : Durable τ ε α}
    (h : n.Ensures (get s) (fun t => I (set s t)) fun r t => Q r (set s t)) : (n.zoom get set).Ensures s I Q := by
  refine ⟨?_, h.2⟩
  intro s' hs'
  obtain ⟨t, ht, rfl⟩ := List.mem_map.mp hs'
  exact h.1 t ht

end Ensures

/-- From a state of `P` the program ends in one, also when it fails. -/
def Preserves (m : Durable σ ε α) (P : σ → Prop) : Prop := ∀ s, P s → P (m s).final

namespace Preserves

variable {m : Durable σ ε α} {f : α → Durable σ ε β} {P : σ → Prop}

theorem query {g : σ → Except ε α} : (query g).Preserves P := fun _ h => h

theorem bind (hm : m.Preserves P) (hf : ∀ a, (f a).Preserves P) : (m >>= f).Preserves P := by
  intro s hs
  cases hr : (m s).result with
  | error e =>
    rw [run_bind_error hr]
    exact hm s hs
  | ok a =>
    rw [run_bind_ok hr]
    exact hf a _ (hm s hs)

theorem forM {l : List α} {f : α → Durable σ ε PUnit} (h : ∀ a ∈ l, (f a).Preserves P) : (l.forM f).Preserves P := by
  induction l with
  | nil => exact fun _ hs => hs
  | cons a rest ih =>
    obtain ⟨hfst, hrest⟩ := List.forall_mem_cons.mp h
    exact bind hfst fun _ => ih hrest

end Preserves

end Durable

end Lib
