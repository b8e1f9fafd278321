import DomProtocol.Lib.Outcome

/-!
# `Lib.Session` — programs that ask the outside

A session runs over a state and a list of answers of the outside, which it takes in order; it may fail at any point, and
then leaves nothing behind.  The `_eq_ok` lemmas invert a session that succeeded one construct at a time.
-/

namespace Lib

/-- A program over states `σ` that asks for answers `A` and may fail with `ε`. -/
def Session (σ A ε α : Type) : Type := σ → List A → Except ε (α × σ × List A)

namespace Session

variable {σ A ε α β : Type}

instance : Monad (Session σ A ε) where
  pure a := fun s answers => .ok (a, s, answers)
  bind m f := fun s answers => do
    let (a, s', answers') ← m s answers
    f a s' answers'

def get : Session σ A ε σ := fun s answers => .ok (s, s, answers)

def modify (f : σ → σ) : Session σ A ε Unit := fun s answers => .ok ((), f s, answers)

def fail (e : ε) : Session σ A ε α := fun _ _ => .error e

/-- Fail with an error when something is bad. -/
def reject (bad : Prop) [Decidable bad] (e : ε) : Session σ A ε Unit :=
  fun s answers => if bad then .error e else .ok ((), s, answers)

def expect (o : Option α) (e : ε) : Session σ A ε α :=
  match o with
  | some a => pure a
  | none => fail e

/-- The next answer; `e` when there is none. -/
def ask (e : ε) : Session σ A ε A := fun s answers =>
  match answers with
  | [] => .error e
  | answer :: rest => .ok (answer, s, rest)

variable {s : σ} {answers : List A} {r : β × σ × List A}

variable {f : α → Session σ A ε β}

@[simp] theorem bind_eq_ok {m : Session σ A ε α} :
    (m >>= f) s answers = .ok r ↔ ∃ a s' answers', m s answers = .ok (a, s', answers') ∧ f a s' answers' = .ok r := by
  show (m s answers >>= _) = _ ↔ _
  simp only [Lib.bind_eq_ok, Prod.exists]

@[simp] theorem pure_eq_ok {a : β} : (pure a : Session σ A ε β) s answers = .ok r ↔ r = (a, s, answers) := by
  show Except.ok _ = _ ↔ _
  rw [Except.ok.injEq, eq_comm]

@[simp] theorem modify_eq_ok {f : σ → σ} {r : Unit × σ × List A} :
    (modify f : Session σ A ε Unit) s answers = .ok r ↔ r = ((), f s, answers) := by
  show Except.ok _ = _ ↔ _
  rw [Except.ok.injEq, eq_comm]

variable {e : ε}

@[simp] theorem reject_eq_ok {bad : Prop} [Decidable bad] {r : Unit × σ × List A} :
    (reject bad e : Session σ A ε Unit) s answers = .ok r ↔ ¬ bad ∧ r = ((), s, answers) := by
  unfold reject
  by_cases h : bad <;> simp [h, eq_comm]

/-! ## What a session starts with -/

@[simp] theorem get_bind (f : σ → Session σ A ε β) : (get >>= f) s answers = f s s answers := rfl

@[simp] theorem modify_bind (g : σ → σ) (f : Unit → Session σ A ε β) : (modify g >>= f) s answers = f () (g s) answers :=
  rfl

@[simp] theorem pure_bind (a : α) (f : α → Session σ A ε β) :
    ((pure a : Session σ A ε α) >>= f) s answers = f a s answers := rfl

theorem bind_of_ok {m : Session σ A ε α} {a : α} {s' : σ} {answers' : List A}
    (h : m s answers = .ok (a, s', answers')) : (m >>= f) s answers = f a s' answers' := by
  show (m s answers >>= _) = _
  rw [h]
  rfl

@[simp] theorem ask_cons_bind (e : ε) (answer : A) (f : A → Session σ A ε β) :
    (ask e >>= f) s (answer :: answers) = f answer s answers := rfl

@[simp] theorem ask_bind_eq_ok {f : A → Session σ A ε β} :
    (ask e >>= f) s answers = .ok r ↔ ∃ answer rest, answers = answer :: rest ∧ f answer s rest = .ok r := by
  cases answers with
  | nil => exact ⟨nofun, nofun⟩
  | cons answer rest => simp

@[simp] theorem reject_bind_eq_ok {bad : Prop} [Decidable bad] {f : Unit → Session σ A ε β} :
    (reject bad e >>= f) s answers = .ok r ↔ ¬ bad ∧ f () s answers = .ok r := by
  simp only [bind_eq_ok, reject_eq_ok, Prod.mk.injEq]
  constructor
  · rintro ⟨_, _, _, ⟨hbad, -, rfl, rfl⟩, h⟩
    exact ⟨hbad, h⟩
  · rintro ⟨hbad, h⟩
    exact ⟨(), _, _, ⟨hbad, trivial, rfl, rfl⟩, h⟩

@[simp] theorem expect_bind_eq_ok {o : Option α} :
    (expect o e >>= f) s answers = .ok r ↔ ∃ a, o = some a ∧ f a s answers = .ok r := by
  cases o with
  | none => exact ⟨nofun, nofun⟩
  | some a => simp [expect]

end Session

end Lib
