import DomProtocol.Settlement.Engine

/-!
# `Settlement.Buffer` — what a failed drain leaves in the reorder buffer

The drain takes the parked envelopes out of the buffer before it retries them.  A retry that fails leaves the buffer
empty, although its own envelope and those after it were neither committed nor classified.
-/

namespace DomProtocol

open Lib Durable

variable (H : List UInt8 → Digest32)

/-- The envelopes that a pass committed, found in the journal or classified late. -/
def handledByPass : List EventEnvelopeV1 → SettlementDb → List EventEnvelopeV1
  | [], _ => []
  | env :: rest, db =>
    match (ingestEvent H env none db).result with
    | .error _ => []
    | .ok .ParkedForReorder => handledByPass rest (ingestEvent H env none db).final
    | .ok _ => env :: handledByPass rest (ingestEvent H env none db).final

/-- The same over the passes of a drain. -/
def handledByLoop : Nat → List EventEnvelopeV1 → SettlementDb → List EventEnvelopeV1
  | 0, _, _ => []
  | passes + 1, parked, db =>
    match (drainPass H parked db).result with
    | .error _ => handledByPass H parked db
    | .ok (progressed, stillParked) =>
      if progressed = false ∨ stillParked = [] then handledByPass H parked db
      else handledByPass H parked db ++ handledByLoop passes stillParked (drainPass H parked db).final

def handledByDrain (s : EngineState) : List EventEnvelopeV1 :=
  handledByLoop H (s.memory.parked.length + 1) s.memory.parked s.db

variable {H} {s : EngineState}

theorem drainPass_leaves (parked : List EventEnvelopeV1) (db : SettlementDb) :
    (drainPass H parked).Ensures db (fun _ => True) fun r _ =>
      (∀ e, r = .error e → (handledByPass H parked db).length < parked.length) ∧
      ∀ p, r = .ok p → (handledByPass H parked db).length + p.2.length = parked.length := by
  induction parked generalizing db with
  | nil =>
    refine .pure ⟨nofun, fun p hp => ?_⟩
    cases hp
    rfl
  | cons env rest ih =>
    obtain ⟨-, herr, hok⟩ := ih (ingestEvent H env none db).final
    refine .bind ⟨fun _ _ => trivial, fun result hres => ?_, fun e he => ?_⟩
    · refine .bind ⟨fun _ _ => trivial, fun p hp => ?_, fun e he => ?_⟩
      · have hlen := hok p hp
        cases result <;> refine .pure ⟨nofun, fun q hq => ?_⟩ <;> cases hq <;>
          simp only [handledByPass, hres, List.length_cons] <;> omega
      · have hlen := herr e he
        refine ⟨fun _ _ => ?_, nofun⟩
        cases result <;> simp only [handledByPass, hres, List.length_cons] <;> omega
    · refine ⟨fun _ _ => ?_, nofun⟩
      simp [handledByPass, he]

theorem drainLoop_leaves (passes : Nat) (parked : List EventEnvelopeV1) (db : SettlementDb) :
    (drainLoop H passes parked).Ensures db (fun _ => True) fun r _ =>
      ∀ e, r = .error e → (handledByLoop H passes parked db).length < parked.length := by
  induction passes generalizing parked db with
  | zero => exact .pure nofun
  | succ passes ih =>
    obtain ⟨-, herr, hok⟩ := drainPass_leaves (H := H) parked db
    refine .bind ⟨fun _ _ => trivial, fun p hp => ?_, fun e he => ?_⟩
    · have hlen := hok p hp
      dsimp only
      split
      · exact .pure nofun
      · rename_i hmore
        refine (ih p.2 _).mono fun r _ h e he => ?_
        have hrest := h e he
        simp only [handledByLoop, hp, if_neg hmore, List.length_append]
        omega
    · intro _ _
      simp only [handledByLoop, he]
      exact herr e he

/-- When the operation fails, each envelope that was parked is still parked, unless it was handled. -/
def KeepsParked {α : Type} (s : EngineState) (out : RunOf EngineState EngineError α)
    (handled : List EventEnvelopeV1) : Prop :=
  ∀ e, out.result = .error e → s.memory.parked.Subperm (out.final.memory.parked ++ handled)

theorem not_keepsParked {e : EngineError} (he : (drainParked H s).result = .error e) :
    ¬ KeepsParked s (drainParked H s) (handledByDrain H s) := by
  have hdrain : (drainParked H).Ensures s (fun _ => True) fun r s' => ∀ e, r = .error e →
      s'.memory.parked = [] ∧ (handledByDrain H s).length < s.memory.parked.length := by
    refine .bind (.query ⟨fun parked hpk => ?_, nofun⟩)
    cases hpk
    refine .bind (.modify ⟨fun _ _ => ?_, nofun⟩)
    refine .bind (.zoom ⟨fun _ _ => trivial, fun _ _ => .modify nofun, fun e he _ _ => ⟨rfl, ?_⟩⟩)
    exact (drainLoop_leaves _ _ _).2 e he
  intro hkept
  obtain ⟨hemp, hlt⟩ := hdrain.2 e he
  have hle := (hkept e he).length_le
  rw [hemp, List.nil_append] at hle
  omega

namespace SmallBuffer

def envelope : EventEnvelopeV1 := ⟨1, 7, 0, 0, 0, 1, 0, .RefundArmed⟩

/-- An empty database, and an envelope that waits for a settlement it does not have. -/
def waiting : EngineState := ⟨.empty, ⟨⟨[], 0, 0⟩, [], [envelope], false⟩, {}⟩

end SmallBuffer

end DomProtocol
