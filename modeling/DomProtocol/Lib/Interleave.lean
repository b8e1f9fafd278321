import DomProtocol.Lib.Script
import DomProtocol.Lib.Reach

/-!
# `Lib.Interleave` — scripts between whose calls others write

Rely and guarantee for scripts over a shared state.  Before each call the others may have taken the state along
`rely`; the script guarantees `guar` of each call it makes.  Scripts that guarantee what the others rely on can be
run side by side in any order, and an invariant of all of them holds in every state reached (`Pool.invariant`).
-/

namespace Lib

namespace Script

variable {σ τ L ε δ α β : Type}

/-- From the given state, whatever steps of `rely` precede each call, and as long as the calls meet `guard`: each
    call is a step of `guar`, and `Q` holds where the script ends. -/
def Withstands (rely : σ → σ → Prop) (guard : σ → L → Prop) (guar : σ → σ → Prop) (Q : Except ε α → σ → Prop) :
    Script σ L ε α → σ → Prop
  | done result, s => Q result s
  | call label _ final next, s => ∀ s', rely s s' → guard s' label →
      guar s' (final s') ∧ (next s').Withstands rely guard guar Q (final s')

namespace Withstands

variable {rely guar : σ → σ → Prop} {guard : σ → L → Prop} {s : σ}

variable {Q : Except ε α → σ → Prop}

theorem pure {a : α} (h : Q (.ok a) s) :
    Withstands rely guard guar Q (Pure.pure a : Script σ L ε α) s := h

theorem fail {e : ε} (h : Q (.error e) s) :
    Withstands rely guard guar Q (Script.fail e) s := h

/-- One call. -/
theorem ofDurable {label : L} {m : Durable σ ε α}
    (h : ∀ s', rely s s' → guard s' label → guar s' (m s').final ∧ Q (m s').result (m s').final) :
    Withstands rely guard guar Q (ofDurable label m) s := h

variable {x : Script σ L ε α}

/-- **Sequencing.** -/
theorem bind {f : α → Script σ L ε β} {Q : Except ε β → σ → Prop}
    (h : Withstands rely guard guar (fun r s' => (∀ a, r = .ok a → Withstands rely guard guar Q (f a) s') ∧
      ∀ e, r = .error e → Q (.error e) s') x s) : Withstands rely guard guar Q (x >>= f) s := by
  induction x generalizing s with
  | done r =>
    cases r with
    | ok a => exact h.1 a rfl
    | error e => exact h.2 e rfl
  | call label visited final next ih =>
    intro s' hrely hgd
    obtain ⟨hguar, hnext⟩ := h s' hrely hgd
    exact ⟨hguar, ih s' hnext⟩

/-- A stronger guarantee is a guarantee. -/
theorem weaken {guar' : σ → σ → Prop} {Q' : Except ε α → σ → Prop} (h : Withstands rely guard guar Q x s)
    (hguar : ∀ a b, guar a b → guar' a b) (hQ : ∀ r s', Q r s' → Q' r s') : Withstands rely guard guar' Q' x s := by
  induction x generalizing s with
  | done r => exact hQ r s h
  | call label visited final next ih =>
    intro s' hrely hgd
    obtain ⟨hcall, hnext⟩ := h s' hrely hgd
    exact ⟨hguar _ _ hcall, ih s' hnext⟩

theorem mono {Q' : Except ε α → σ → Prop} (h : Withstands rely guard guar Q x s) (hQ : ∀ r s', Q r s' → Q' r s') :
    Withstands rely guard guar Q' x s := h.weaken (fun _ _ => id) hQ

/-- What a script withstands it also withstands after the others have moved, when the end does not mind. -/
theorem after (htrans : ∀ a b c, rely a b → rely b c → rely a c) (hQ : ∀ r a b, rely a b → Q r a → Q r b) {s' : σ}
    (h : Withstands rely guard guar Q x s) (hrely : rely s s') : Withstands rely guard guar Q x s' := by
  cases x with
  | done r => exact hQ r s s' hrely h
  | call label visited final next => exact fun s'' hrely' hgd => h s'' (htrans _ _ _ hrely hrely') hgd

theorem attempt {Q : Except δ (Except ε α) → σ → Prop}
    (h : Withstands rely guard guar (fun r s' => Q (.ok r) s') x s) : Withstands rely guard guar Q x.attempt s := by
  induction x generalizing s with
  | done r => exact h
  | call label visited final next ih =>
    intro s' hrely hgd
    obtain ⟨hguar, hnext⟩ := h s' hrely hgd
    exact ⟨hguar, ih s' hnext⟩

theorem mapError {f : ε → δ} {Q : Except δ α → σ → Prop}
    (h : Withstands rely guard guar (fun r s' => Q (r.mapError f) s') x s) :
    Withstands rely guard guar Q (x.mapError f) s := by
  induction x generalizing s with
  | done r => exact h
  | call label visited final next ih =>
    intro s' hrely hgd
    obtain ⟨hguar, hnext⟩ := h s' hrely hgd
    exact ⟨hguar, ih s' hnext⟩

theorem relabel {M : Type} {f : L → M} {guard : σ → M → Prop}
    (h : Withstands rely (fun s label => guard s (f label)) guar Q x s) :
    Withstands rely guard guar Q (x.relabel f) s := by
  induction x generalizing s with
  | done r => exact h
  | call label visited final next ih =>
    intro s' hrely hgd
    obtain ⟨hguar, hnext⟩ := h s' hrely hgd
    exact ⟨hguar, ih s' hnext⟩

/-- What every step of the others and every call keeps is kept from the start to the end. -/
theorem track {R : σ → σ → Prop} (hrefl : ∀ a, R a a) (htrans : ∀ a b c, R a b → R b c → R a c)
    (hrely : ∀ a b, rely a b → R a b) (hguar : ∀ a b, guar a b → R a b) (h : Withstands rely guard guar Q x s) :
    Withstands rely guard guar (fun r s' => Q r s' ∧ R s s') x s := by
  suffices hfrom : ∀ s₀, R s₀ s → Withstands rely guard guar (fun r s' => Q r s' ∧ R s₀ s') x s from hfrom s (hrefl s)
  induction x generalizing s with
  | done r => exact fun s₀ hs₀ => ⟨h, hs₀⟩
  | call label visited final next ih =>
    intro s₀ hs₀ s' hs' hgd
    obtain ⟨hcall, hnext⟩ := h s' hs' hgd
    exact ⟨hcall, ih s' hnext s₀ (htrans _ _ _ (htrans _ _ _ hs₀ (hrely _ _ hs')) (hguar _ _ hcall))⟩

/-- A script on a part of the state. -/
theorem zoom {get : σ → τ} {set : σ → τ → σ} {rely' guar' : τ → τ → Prop} {guard' : τ → L → Prop}
    {x : Script τ L ε α} {Q : Except ε α → τ → Prop} (hget : ∀ s t, get (set s t) = t)
    (hrely : ∀ a b, rely a b → rely' (get a) (get b)) (hgd : ∀ a label, guard a label → guard' (get a) label)
    (hguar : ∀ a t, guar' (get a) t → guar a (set a t)) (h : Withstands rely' guard' guar' Q x (get s)) :
    Withstands rely guard guar (fun r s' => Q r (get s')) (x.zoom get set) s := by
  induction x generalizing s with
  | done r => exact h
  | call label visited final next ih =>
    intro s' hs' hlabel
    obtain ⟨hcall, hnext⟩ := h (get s') (hrely _ _ hs') (hgd _ _ hlabel)
    refine ⟨hguar _ _ hcall, ih (get s') ?_⟩
    rw [hget]
    exact hnext

end Withstands

end Script

/-! ## Pools -/

/-- A shared state, and scripts that take turns on it. -/
structure Pool (σ L ε α : Type) where
  shared : σ
  threads : List (Script σ L ε α)

/-- A script joins, one makes its next call, or one is given up. -/
inductive Turn (σ L ε α : Type) where
  | start (script : Script σ L ε α)
  | call (index : Nat)
  | drop (index : Nat)

namespace Pool

variable {σ L ε α : Type}

def next (p : Pool σ L ε α) : Turn σ L ε α → Pool σ L ε α
  | .start script => { p with threads := script :: p.threads }
  | .call index =>
    match p.threads[index]? with
    | some (.call _ _ final next) => ⟨final p.shared, p.threads.set index (next p.shared)⟩
    | _ => p
  | .drop index => { p with threads := p.threads.eraseIdx index }

/-- The pools reached from an initial state by threads of one kind. -/
def Reachable (init : σ → Prop) (kind : Script σ L ε α → Prop) : Pool σ L ε α → Prop :=
  Reach (fun p => init p.shared ∧ p.threads = [])
    (fun _ turn => ∀ script, turn = .start script → kind script) next

/-- **Parallel composition.**  Threads that keep `inv` and guarantee `rely` to each other keep `inv` together. -/
theorem invariant {init inv : σ → Prop} {kind : Script σ L ε α → Prop} {rely : σ → σ → Prop}
    (hrefl : ∀ s, rely s s) (htrans : ∀ a b c, rely a b → rely b c → rely a c) (hinit : ∀ s, init s → inv s)
    (hkind : ∀ script s, kind script → script.Withstands rely (fun s _ => inv s)
      (fun s s' => rely s s' ∧ inv s') (fun _ _ => True) s)
    {p : Pool σ L ε α} (h : Reachable init kind p) : inv p.shared := by
  refine (Reach.invariant (P := fun p => inv p.shared ∧ ∀ script ∈ p.threads, script.Withstands rely
    (fun s _ => inv s) (fun s s' => rely s s' ∧ inv s') (fun _ _ => True) p.shared) ?_ ?_ h).1
  · rintro p ⟨hp, hthr⟩
    refine ⟨hinit _ hp, ?_⟩
    rw [hthr]
    intro script hscr
    cases hscr
  · rintro p turn ⟨hinv, hthr⟩ hturn
    cases turn with
    | start script =>
      exact ⟨hinv, List.forall_mem_cons.mpr ⟨hkind _ _ (hturn _ rfl), hthr⟩⟩
    | drop index => exact ⟨hinv, fun script hscr => hthr script (List.mem_of_mem_eraseIdx hscr)⟩
    | call index =>
      unfold next
      dsimp only
      split
      · rename_i label visited final next hget
        have hscr := hthr _ (List.mem_of_getElem? hget)
        obtain ⟨⟨hrely, hinv'⟩, hnext⟩ := hscr p.shared (hrefl _) hinv
        refine ⟨hinv', ?_⟩
        intro other hoth
        rcases List.mem_or_eq_of_mem_set hoth with hoth | rfl
        · -- the other threads see a step they rely on
          exact (hthr other hoth).after htrans (fun _ _ _ _ _ => trivial) hrely
        · exact hnext
      · exact ⟨hinv, hthr⟩

/-- A script that runs on its own, with nobody else there, reaches what `run` says. -/
theorem Reachable.run {init : σ → Prop} {kind : Script σ L ε α → Prop} {s : σ} (h : Reachable init kind ⟨s, []⟩)
    {script : Script σ L ε α} (hkind : kind script) : Reachable init kind ⟨(script.run s).final, []⟩ := by
  have hstarted : Reachable init kind ⟨s, [script]⟩ := .step h (.start script) (by rintro _ ⟨⟩; exact hkind)
  clear h hkind
  induction script generalizing s with
  | done r => exact .step hstarted (.drop 0) nofun
  | call label visited final next ih => exact ih s (.step hstarted (.call 0) nofun)

end Pool

end Lib
