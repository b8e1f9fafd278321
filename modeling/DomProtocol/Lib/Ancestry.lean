import Mathlib.Data.List.Chain
import Mathlib.Data.List.Nodup
import Mathlib.Tactic.Common

/-!
# `Lib.Ancestry` — parent links in a keyed set of nodes

Nodes are found by key (`lookup`) and name the key of their parent, roots excepted.  `Down t a l` says that
following parents from `t` reaches `a` after the nodes `l`, nearest to `t` first.  When links are ranked by a
height, a path is as long as the heights are apart, paths have no repetitions, and every node has one path to the
first of its ancestors inside a set that contains the roots.
-/

namespace Lib

variable {H N : Type}

/-- Following parents from `t` passes the nodes `l` and arrives at `a`. -/
inductive Down (lookup : H → Option N) (parent : N → Option H) : H → H → List (H × N) → Prop where
  | refl (a : H) : Down lookup parent a a []
  | step {t p a : H} {n : N} {l : List (H × N)} (hlookup : lookup t = some n) (hparent : parent n = some p)
      (htail : Down lookup parent p a l) : Down lookup parent t a ((t, n) :: l)

def Ranked (lookup : H → Option N) (parent : N → Option H) (height : N → Nat) : Prop :=
  ∀ ⦃t n p⦄, lookup t = some n → parent n = some p → ∃ m, lookup p = some m ∧ height n = height m + 1

/-- Each node of the list is the parent of the next one. -/
def Ascending (parent : N → Option H) (l : List (H × N)) : Prop :=
  l.IsChain fun x y => parent y.2 = some x.1

namespace Down

variable {lookup : H → Option N} {parent : N → Option H} {height : N → Nat}
variable {t a b : H} {l m : List (H × N)}

variable {x : H × N}

theorem lookup_of_mem (h : Down lookup parent t a l) (hx : x ∈ l) :
    lookup x.1 = some x.2 := by
  induction h with
  | refl a => cases hx
  | step hlk _ _ ih =>
    rcases List.mem_cons.mp hx with rfl | hx
    · exact hlk
    · exact ih hx

/-- A path only depends on the nodes it passes. -/
theorem of_lookup {lookup' : H → Option N} (h : Down lookup parent t a l)
    (hsame : ∀ x ∈ l, lookup' x.1 = some x.2) : Down lookup' parent t a l := by
  induction h with
  | refl a => exact .refl a
  | step hlk hpar _ ih =>
    exact .step (hsame _ List.mem_cons_self) hpar (ih fun x hx => hsame x (List.mem_cons_of_mem _ hx))

/-- A path can be cut at any node it passes. -/
theorem cut (h : Down lookup parent t a (l ++ x :: m)) :
    Down lookup parent t x.1 l ∧ Down lookup parent x.1 a (x :: m) := by
  induction l generalizing t with
  | nil =>
    cases h with
    | step hlk hpar htail => exact ⟨.refl _, .step hlk hpar htail⟩
  | cons y l ih =>
    cases h with
    | step hlk hpar htail =>
      obtain ⟨hupp, hlow⟩ := ih htail
      exact ⟨.step hlk hpar hupp, hlow⟩

variable {C : H → Prop}

/-- Two paths from one node to the first member of a set are the same path. -/
theorem unique_of_first {a' : H} {l' : List (H × N)} (h : Down lookup parent t a l)
    (h' : Down lookup parent t a' l') (ha : C a) (ha' : C a') (hl : ∀ x ∈ l, ¬ C x.1) (hl' : ∀ x ∈ l', ¬ C x.1) :
    a = a' ∧ l = l' := by
  induction h generalizing l' with
  | refl a =>
    cases h' with
    | refl _ => exact ⟨rfl, rfl⟩
    | step _ _ _ => exact absurd ha (hl' _ List.mem_cons_self)
  | step hlk hpar _ ih =>
    cases h' with
    | refl _ => exact absurd ha' (hl _ List.mem_cons_self)
    | step hlk' hpar' htail' =>
      obtain rfl := Option.some.inj (hlk.symm.trans hlk')
      obtain rfl := Option.some.inj (hpar.symm.trans hpar')
      obtain ⟨rfl, rfl⟩ := ih htail' ha (fun x hx => hl x (List.mem_cons_of_mem _ hx))
        fun x hx => hl' x (List.mem_cons_of_mem _ hx)
      exact ⟨rfl, rfl⟩

/-! ## Heights -/

variable {n : N}

variable (hrank : Ranked lookup parent height)
include hrank

variable (h : Down lookup parent t a l)
include h

/-- A path between two nodes is as long as their heights are apart. -/
theorem height_eq {na : N} (hn : lookup t = some n) (hna : lookup a = some na) : height n = height na + l.length := by
  induction h generalizing n with
  | refl a =>
    obtain rfl := Option.some.inj (hn.symm.trans hna)
    rfl
  | step hlk hpar _ ih =>
    obtain rfl := Option.some.inj (hn.symm.trans hlk)
    obtain ⟨m, hm, hht⟩ := hrank hlk hpar
    have := ih hm hna
    rw [hht, this, List.length_cons, Nat.add_assoc]

/-- Nodes passed by a path lie above its end. -/
theorem height_lt_of_mem {na : N} (hna : lookup a = some na) (hx : x ∈ l) : height na < height x.2 := by
  obtain ⟨upper, lower, rfl⟩ := List.append_of_mem hx
  have hlow := h.cut.2
  have := hlow.height_eq hrank (h.lookup_of_mem hx) hna
  rw [List.length_cons] at this
  omega

/-- A path below a node stays below it. -/
theorem height_le_of_mem (hn : lookup t = some n) (hx : x ∈ l) : height x.2 ≤ height n := by
  obtain ⟨upper, lower, rfl⟩ := List.append_of_mem hx
  have := h.cut.1.height_eq hrank hn (h.lookup_of_mem hx)
  omega

/-- A path does not visit a node twice. -/
theorem nodup : (l.map Prod.fst).Nodup := by
  induction h with
  | refl a => simp
  | @step t p a n l hlk hpar htail ih =>
    rw [List.map_cons, List.nodup_cons]
    refine ⟨fun hmem => ?_, ih⟩
    obtain ⟨⟨_, n'⟩, hx, rfl⟩ := List.mem_map.mp hmem
    obtain ⟨m, hm, hht⟩ := hrank hlk hpar
    have hle : height n' ≤ height m := htail.height_le_of_mem hrank hm hx
    obtain rfl : n = n' := Option.some.inj (hlk.symm.trans (htail.lookup_of_mem hx))
    omega

omit h

/-! ## The first ancestor in a set -/

/-- **Fork point.**  Every node has a path to its first ancestor in a set that contains the roots. -/
theorem exists_first (hroot : ∀ t n, lookup t = some n → parent n = none → C t) (hn : lookup t = some n) :
    ∃ a l, Down lookup parent t a l ∧ C a ∧ ∀ x ∈ l, ¬ C x.1 := by
  -- induction on the height: the parent lies one lower
  induction hht : height n using Nat.strong_induction_on generalizing t n with
  | _ k ih =>
    by_cases hC : C t
    · exact ⟨t, [], .refl t, hC, by simp⟩
    · cases hpar : parent n with
      | none => exact absurd (hroot t n hn hpar) hC
      | some p =>
        obtain ⟨m, hm, hlt⟩ := hrank hn hpar
        obtain ⟨a, l, hdown, ha, hl⟩ := ih (height m) (by omega) hm rfl
        exact ⟨a, (t, n) :: l, .step hn hpar hdown, ha, List.forall_mem_cons.mpr ⟨hC, hl⟩⟩

omit hrank

/-- A path that ends in a set splits at its first member of the set. -/
theorem split_at_first (h : Down lookup parent t a l) (ha : C a) :
    ∃ b l₁ l₂, Down lookup parent t b l₁ ∧ Down lookup parent b a l₂ ∧ C b ∧ (∀ x ∈ l₁, ¬ C x.1) ∧
      l = l₁ ++ l₂ := by
  induction h with
  | refl a => exact ⟨a, [], [], .refl a, .refl a, ha, by simp, rfl⟩
  | @step t p a n l hlk hpar htail ih =>
    by_cases hC : C t
    · exact ⟨t, [], (t, n) :: l, .refl t, .step hlk hpar htail, hC, by simp, rfl⟩
    · obtain ⟨b, l₁, l₂, hupp, hlow, hb, hl₁, rfl⟩ := ih ha
      exact ⟨b, (t, n) :: l₁, l₂, .step hlk hpar hupp, hlow, hb, List.forall_mem_cons.mpr ⟨hC, hl₁⟩, rfl⟩

/-- A path that starts in a set closed under parents stays in it. -/
theorem mem_of_closed (hclsd : ∀ t n p, C t → lookup t = some n → parent n = some p → C p)
    (h : Down lookup parent t a l) (ht : C t) : ∀ x ∈ l, C x.1 := by
  induction h with
  | refl a => simp
  | step hlk hpar _ ih => exact List.forall_mem_cons.mpr ⟨ht, ih (hclsd _ _ _ ht hlk hpar)⟩

/-- The parent of a node on a path is on the path, or is its end. -/
theorem parent_mem (h : Down lookup parent t a l) (hx : x ∈ l) {p : H} (hp : parent x.2 = some p) :
    p = a ∨ p ∈ l.map Prod.fst := by
  induction h with
  | refl a => cases hx
  | @step t q a n l hlk hpar htail ih =>
    rcases List.mem_cons.mp hx with rfl | hx
    · obtain rfl := Option.some.inj (hpar.symm.trans hp)
      cases htail with
      | refl a => exact .inl rfl
      | step _ _ _ => exact .inr (by simp)
    · rcases ih hx with rfl | hmem
      · exact .inl rfl
      · exact .inr (List.mem_cons_of_mem _ hmem)

/-! ## Paths and ascending lists -/

/-- A path read backwards ascends from its end to its start. -/
theorem ascending (h : Down lookup parent t a l) (na : N) : Ascending parent ((a, na) :: l.reverse) ∧
      ((a, na) :: l.reverse).getLast?.map Prod.fst = some t := by
  induction h with
  | refl a => simp [Ascending]
  | @step t p a n l hlk hpar htail ih =>
    obtain ⟨hch, hlast⟩ := ih
    have hapd : (a, na) :: ((t, n) :: l).reverse = ((a, na) :: l.reverse) ++ [(t, n)] := by simp
    rw [hapd]
    refine ⟨?_, by rw [List.getLast?_concat]; rfl⟩
    unfold Ascending at hch ⊢
    rw [List.isChain_append]
    refine ⟨hch, List.isChain_singleton _, ?_⟩
    intro x hx y hy
    obtain rfl : (t, n) = y := by simpa using hy
    rw [Option.mem_def.mp hx] at hlast
    rw [Option.some.inj hlast]
    exact hpar

/-- The upper part of an ascending list is a path down to its lowest node. -/
theorem of_ascending {l : List (H × N)} (hch : Ascending parent (x :: l))
    (hlk : ∀ y ∈ l, lookup y.1 = some y.2) (hlast : (x :: l).getLast?.map Prod.fst = some t) :
    Down lookup parent t x.1 l.reverse := by
  induction l using List.reverseRecOn generalizing t with
  | nil =>
    obtain rfl : x.1 = t := by simpa using hlast
    exact .refl _
  | append_singleton l y ih =>
    rw [← List.cons_append, List.getLast?_concat] at hlast
    obtain rfl := Option.some.inj hlast
    unfold Ascending at hch ih
    rw [← List.cons_append, List.isChain_append] at hch
    obtain ⟨hlow, -, hlink⟩ := hch
    obtain ⟨z, hz⟩ : ∃ z, (x :: l).getLast? = some z :=
      ⟨_, List.getLast?_eq_some_getLast (List.cons_ne_nil _ _)⟩
    have hpar : parent y.2 = some z.1 := hlink z hz y rfl
    have hrest := ih (t := z.1) hlow (fun w hw => hlk w (List.mem_append_left _ hw)) (by rw [hz]; rfl)
    have hy := hlk y (List.mem_append_right _ List.mem_cons_self)
    simpa using Down.step hy hpar hrest

end Down

end Lib
