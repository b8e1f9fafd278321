import DomProtocol.Lib.Durable

/-!
# `Lib.Script` — programs taken one labelled call at a time

A script is a program cut into calls.  Each call runs as a `Durable` program, so it may pass through several
durable states of its own, and it carries a label that says which call it is.  What happens around a script — a
crash, a question asked before a call is made, another program that writes in between — can then be said at the
calls, while the program is still written in one piece.  `run` is the script on its own.  `Ensures` is what holds
along it as long as every call meets a guard.
-/

namespace Lib

/-- A program over states `σ` whose calls are labelled by `L`: it is over, or it makes a call and goes on with
    what the call leaves. -/
inductive Script (σ L ε α : Type) : Type where
  | done (result : Except ε α)
  | call (label : L) (visited : σ → List σ) (final : σ → σ) (next : σ → Script σ L ε α)

variable {δ M : Type}

namespace Script

variable {σ L ε α β : Type}

def andThen : Script σ L ε α → (α → Script σ L ε β) → Script σ L ε β
  | done (.ok a), f => f a
  | done (.error e), _ => done (.error e)
  | call label visited final next, f => call label visited final fun s => (next s).andThen f

instance : Monad (Script σ L ε) where
  pure a := done (.ok a)
  bind := andThen

def ofDurable (label : L) (m : Durable σ ε α) : Script σ L ε α :=
  call label (fun s => (m s).visited) (fun s => (m s).final) fun s => done (m s).result

/-- The calls `f a rest` for each element `a` of a list with the elements after it. -/
def forEach (f : α → List α → Script σ L ε Unit) : List α → Script σ L ε Unit
  | [] => pure ()
  | a :: rest => do
      f a rest
      forEach f rest

def fail (e : ε) : Script σ L ε α := done (.error e)

/-- The calls of a script on the part of the state that `get` reads and `set` writes. -/
def zoom {τ : Type} (get : σ → τ) (set : σ → τ → σ) : Script τ L ε α → Script σ L ε α
  | done result => done result
  | call label visited final next =>
    call label (fun s => (visited (get s)).map (set s)) (fun s => set s (final (get s)))
      fun s => (next (get s)).zoom get set

/-- Go on with the result of a script, whether or not it failed. -/
def attempt {δ : Type} : Script σ L ε α → Script σ L δ (Except ε α)
  | done result => done (.ok result)
  | call label visited final next => call label visited final fun s => (next s).attempt

/-- The same script with its errors renamed. -/
def mapError {δ : Type} (f : ε → δ) : Script σ L ε α → Script σ L δ α
  | done result => done (result.mapError f)
  | call label visited final next => call label visited final fun s => (next s).mapError f

/-- The same script with its calls labelled anew. -/
def relabel {M : Type} (f : L → M) : Script σ L ε α → Script σ M ε α
  | done result => done result
  | call label visited final next => call (f label) visited final fun s => (next s).relabel f

/-! ## A script on its own -/

/-- The script run without anything happening between its calls. -/
def run : Script σ L ε α → Durable σ ε α
  | done result, s => ⟨[], s, result⟩
  | call _ visited final next, s =>
    let rest := (next s).run (final s)
    ⟨visited s ++ rest.visited, rest.final, rest.result⟩

@[simp] theorem run_pure (a : α) : (pure a : Script σ L ε α).run = pure a := rfl

@[simp] theorem run_fail (e : ε) : (fail e : Script σ L ε α).run = Durable.fail e := rfl

@[simp] theorem run_ofDurable (label : L) (m : Durable σ ε α) : (ofDurable label m).run = m := by
  funext s
  simp [ofDurable, run]

@[simp] theorem run_bind (x : Script σ L ε α) (f : α → Script σ L ε β) :
    (x >>= f).run = x.run >>= fun a => (f a).run := by
  funext s
  induction x generalizing s with
  | done r =>
    cases r with
    | ok a => rw [Durable.run_bind_ok (m := (done (.ok a) : Script σ L ε α).run) rfl]; rfl
    | error e => rw [Durable.run_bind_error (m := (done (.error e) : Script σ L ε α).run) rfl]; rfl
  | call label visited final next ih =>
    have hnext : ((next s).andThen f).run (final s) = ((next s).run >>= fun a => (f a).run) (final s) :=
      ih s (final s)
    show RunOf.mk (visited s ++ (((next s).andThen f).run (final s)).visited)
      (((next s).andThen f).run (final s)).final (((next s).andThen f).run (final s)).result = _
    rw [hnext]
    cases hr : ((next s).run (final s)).result with
    | error e =>
      rw [Durable.run_bind_error hr, Durable.run_bind_error (m := (call label visited final next).run) hr]
      rfl
    | ok a =>
      rw [Durable.run_bind_ok hr, Durable.run_bind_ok (m := (call label visited final next).run) hr]
      simp [run, List.append_assoc]

@[simp] theorem run_attempt (x : Script σ L ε α) : (x.attempt (δ := δ)).run = x.run.attempt := by
  funext s
  induction x generalizing s with
  | done r => rfl
  | call label visited final next ih => simp [attempt, run, ih, Durable.attempt]

@[simp] theorem run_mapError (f : ε → δ) (x : Script σ L ε α) : (x.mapError f).run = x.run.mapError f := by
  funext s
  induction x generalizing s with
  | done r => rfl
  | call label visited final next ih => simp [mapError, run, ih, Durable.mapError]

@[simp] theorem run_relabel (f : L → M) (x : Script σ L ε α) : (x.relabel f).run = x.run := by
  funext s
  induction x generalizing s with
  | done r => rfl
  | call label visited final next ih => simp [relabel, run, ih]

theorem run_zoom {τ : Type} {get : σ → τ} {set : σ → τ → σ} (hget : ∀ s t, get (set s t) = t)
    (hset : ∀ s t t', set (set s t) t' = set s t') (hself : ∀ s, set s (get s) = s) (x : Script τ L ε α) :
    (x.zoom get set).run = x.run.zoom get set := by
  funext s
  induction x generalizing s with
  | done r => simp [zoom, run, Durable.zoom, hself]
  | call label visited final next ih =>
    have hwts : set (set s (final (get s))) = set s := funext (hset s _)
    simp only [zoom, run, ih, Durable.zoom, hget, hwts, List.map_append]

/-- A loop is run element by element. -/
theorem run_forEach_congr {f : α → List α → Script σ L ε Unit} {g : α → List α → Script σ M ε Unit}
    (h : ∀ a rest, (f a rest).run = (g a rest).run) (l : List α) : (forEach f l).run = (forEach g l).run := by
  induction l with
  | nil => rfl
  | cons a rest ih => simp only [forEach, run_bind, h, ih]

/-! ## What a script ensures -/

/-- From the given state, as long as every call meets `guard` in the state it is made in: `I` holds in every state
    passed through, and `Q` at the end. -/
def Ensures (guard : σ → L → Prop) (I : σ → Prop) (Q : Except ε α → σ → Prop) : Script σ L ε α → σ → Prop
  | done result, s => Q result s
  | call label visited final next, s =>
    guard s label → (∀ s' ∈ visited s, I s') ∧ I (final s) ∧ (next s).Ensures guard I Q (final s)

namespace Ensures

variable {guard : σ → L → Prop} {I : σ → Prop} {s : σ}

variable {Q : Except ε α → σ → Prop}

theorem pure {a : α} (h : Q (.ok a) s) :
    Ensures guard I Q (Pure.pure a : Script σ L ε α) s := h

/-- A call ensures what its program ensures. -/
theorem ofDurable {label : L} {m : Durable σ ε α} (h : guard s label → m.Ensures s I fun r s' => I s' ∧ Q r s') :
    Ensures guard I Q (ofDurable label m) s :=
  fun hgd => ⟨(h hgd).1, (h hgd).2⟩

/-- **Sequencing.** -/
theorem bind {x : Script σ L ε α} {f : α → Script σ L ε β} {Q : Except ε β → σ → Prop}
    (h : Ensures guard I
      (fun r s' => (∀ a, r = .ok a → Ensures guard I Q (f a) s') ∧ ∀ e, r = .error e → Q (.error e) s') x s) :
    Ensures guard I Q (x >>= f) s := by
  induction x generalizing s with
  | done r =>
    cases r with
    | ok a => exact h.1 a rfl
    | error e => exact h.2 e rfl
  | call label visited final next ih =>
    intro hgd
    obtain ⟨hvis, hfin, hnext⟩ := h hgd
    exact ⟨hvis, hfin, ih s hnext⟩

theorem mono {x : Script σ L ε α} {Q' : Except ε α → σ → Prop} (h : Ensures guard I Q x s)
    (hQ : ∀ r s', Q r s' → Q' r s') : Ensures guard I Q' x s := by
  induction x generalizing s with
  | done r => exact hQ r s h
  | call label visited final next ih =>
    intro hgd
    obtain ⟨hvis, hfin, hnext⟩ := h hgd
    exact ⟨hvis, hfin, ih s hnext⟩

/-- **Loop rule.**  `P rest` holds before the calls for `rest`; each round takes it from `a :: rest` to `rest`. -/
theorem forEach {f : α → List α → Script σ L ε Unit} {P : List α → σ → Prop} {Q : Except ε Unit → σ → Prop}
    (hround : ∀ a rest s, P (a :: rest) s → Ensures guard I
      (fun r s' => (r = .ok () → P rest s') ∧ ∀ e, r = .error e → Q (.error e) s') (f a rest) s)
    (hend : ∀ s, P [] s → Q (.ok ()) s) {l : List α} (h : P l s) : Ensures guard I Q (forEach f l) s := by
  induction l generalizing s with
  | nil => exact hend s h
  | cons a rest ih =>
    refine bind (mono (hround a rest s h) fun r s' hr => ⟨?_, hr.2⟩)
    intro u hu
    exact ih (hr.1 hu)

end Ensures

end Script

end Lib
