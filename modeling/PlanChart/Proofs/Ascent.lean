import Mathlib

/-!
# Going up

A link leads from some positions to another one. Following it again and again either ends at a
position without a link or never ends. Where it ends, it never comes back to a position, and so it
takes fewer steps than there are positions.
-/

namespace PlanChart

/-! ### Steps -/

/-- The position reached by following a link a number of times. -/
def ascend (up : Nat → Option Nat) : Nat → Nat → Option Nat
  | 0, position => some position
  | steps + 1, position => (up position).bind (ascend up steps)

variable {up : Nat → Option Nat}

@[simp] lemma ascend_zero (position : Nat) : ascend up 0 position = some position := rfl

@[simp] lemma ascend_succ (steps position : Nat) :
    ascend up (steps + 1) position = (up position).bind (ascend up steps) := rfl

lemma ascend_add (j k position : Nat) :
    ascend up (j + k) position = (ascend up j position).bind (ascend up k) := by
  induction j generalizing position with
  | zero => simp
  | succ j ih =>
    rw [Nat.add_right_comm, ascend_succ, ascend_succ]
    cases up position with
    | none => rfl
    | some next => exact ih next

lemma ascend_one (position : Nat) : ascend up 1 position = up position := by
  rw [ascend_succ]
  cases up position <;> rfl

lemma ascend_succ_eq_bind (steps position : Nat) :
    ascend up (steps + 1) position = (ascend up steps position).bind up := by
  rw [ascend_add, funext ascend_one]

/-- A chain of links lists the positions on the way up from the first of them. -/
lemma ascend_eq_getElem {i : Nat} {way : List Nat}
    (h : (i :: way).IsChain fun i p => up i = some p) {steps : Nat}
    (hsteps : steps < (i :: way).length) : ascend up steps i = some (i :: way)[steps] := by
  induction steps with
  | zero => rfl
  | succ steps ih =>
    rw [ascend_succ_eq_bind, ih (by omega), Option.bind_some]
    exact List.isChain_iff_getElem.mp h steps hsteps

/-- To go up one or more steps is to follow one or more links. -/
lemma transGen_iff_exists_ascend {i j : Nat} :
    Relation.TransGen (fun i p => up i = some p) i j ↔
      ∃ steps, ascend up (steps + 1) i = some j := by
  constructor
  · intro h
    induction h with
    | single h => exact ⟨0, (ascend_one i).trans h⟩
    | tail _ h ih =>
      obtain ⟨steps, hsteps⟩ := ih
      exact ⟨steps + 1, by rw [ascend_succ_eq_bind, hsteps]; exact h⟩
  · rintro ⟨steps, hsteps⟩
    induction steps generalizing j with
    | zero => exact .single ((ascend_one i).symm.trans hsteps)
    | succ steps ih =>
      rw [ascend_succ_eq_bind] at hsteps
      obtain ⟨p, hp, hj⟩ := Option.bind_eq_some_iff.mp hsteps
      exact (ih hp).tail hj

lemma ascend_lt {n : Nat} (hup : ∀ i p, up i = some p → p < n) {steps i j : Nat} (hi : i < n)
    (h : ascend up steps i = some j) : j < n := by
  induction steps generalizing i with
  | zero =>
    cases h
    exact hi
  | succ steps ih =>
    obtain ⟨next, hnext, hj⟩ := Option.bind_eq_some_iff.mp h
    exact ih (hup i next hnext) hj

/-! ### Positions from which the way up ends -/

/-- Following a link from a position comes to an end. -/
inductive Grounded (up : Nat → Option Nat) : Nat → Prop
  | top {position : Nat} (h : up position = none) : Grounded up position
  | step {position next : Nat} (h : up position = some next) (hn : Grounded up next) :
      Grounded up position

namespace Grounded

lemma of_up_eq_some {i p : Nat} (h : Grounded up i) (hp : up i = some p) : Grounded up p := by
  cases h with
  | top h => rw [h] at hp; cases hp
  | step h hn =>
    rw [h] at hp
    cases hp
    exact hn

lemma of_ascend {steps i j : Nat} (h : Grounded up i) (hj : ascend up steps i = some j) :
    Grounded up j := by
  induction steps generalizing i with
  | zero =>
    cases hj
    exact h
  | succ steps ih =>
    obtain ⟨next, hnext, hj⟩ := Option.bind_eq_some_iff.mp hj
    exact ih (h.of_up_eq_some hnext) hj

/-- The way up ends at a position without a link. -/
lemma exists_top {i : Nat} (h : Grounded up i) :
    ∃ steps root, ascend up steps i = some root ∧ up root = none := by
  induction h with
  | @top position h => exact ⟨0, position, rfl, h⟩
  | step h _ ih =>
    obtain ⟨steps, root, hroot, htop⟩ := ih
    exact ⟨steps + 1, root, by rw [ascend_succ, h]; exact hroot, htop⟩

/-- A way up that ends does not come back to where it started. -/
lemma ascend_ne_self {i : Nat} (h : Grounded up i) (steps : Nat) :
    ascend up (steps + 1) i ≠ some i := by
  induction h with
  | top h => simp [h]
  | @step position next h _ ih =>
    intro hback
    apply ih
    -- One step further on a way that leads from `position` to itself stands `next`.
    have hnext : ascend up steps next = some position := by simpa [h] using hback
    have hlast : ascend up 1 position = some next := by simp [h]
    rw [ascend_add, hnext]
    exact hlast

/-- The positions on a way up that ends are distinct. -/
lemma ascend_ne_ascend {i a : Nat} (h : Grounded up i) {j k : Nat} (hjk : j < k)
    (hj : ascend up j i = some a) : ascend up k i ≠ some a := by
  obtain ⟨d, rfl⟩ := Nat.exists_eq_add_of_lt hjk
  rw [Nat.add_assoc, ascend_add, hj]
  exact (h.of_ascend hj).ascend_ne_self d

/-- A way up that ends takes fewer steps than there are positions. -/
lemma steps_lt {n : Nat} (hup : ∀ i p, up i = some p → p < n) {steps i j : Nat}
    (h : Grounded up i) (hi : i < n) (hj : ascend up steps i = some j) : steps < n := by
  have hsome : ∀ k : Fin (steps + 1), ∃ a : Fin n, ascend up k i = some a.val := by
    intro k
    cases hk : ascend up k i with
    | some a => exact ⟨⟨a, ascend_lt hup hi hk⟩, rfl⟩
    | none =>
      have hle : k.val + (steps - k.val) = steps := by omega
      rw [← hle, ascend_add, hk] at hj
      cases hj
  -- Were there as many steps as positions, two of them would lead to the same one.
  choose way hway using hsome
  have hinj : Function.Injective way := by
    intro j k hjk
    by_contra hne
    rcases Nat.lt_or_gt_of_ne (fun hval => hne (Fin.ext hval)) with hlt | hlt
    · exact h.ascend_ne_ascend hlt (hway j) (hjk ▸ hway k)
    · exact h.ascend_ne_ascend hlt (hway k) (hjk ▸ hway j)
  have hcard := Fintype.card_le_of_injective way hinj
  rw [Fintype.card_fin, Fintype.card_fin] at hcard
  omega

/-- Going down against a link that is grounded everywhere comes to an end, too. -/
lemma wellFounded_down {n : Nat} (h : ∀ i, Grounded up i) (hup : ∀ i p, up i = some p → p < n) :
    WellFounded fun i p => i < n ∧ up i = some p := by
  -- Every step down makes the way back up to where it started one step longer.
  have hacc : ∀ m p steps root, ascend up steps p = some root → p < n → n ≤ steps + m →
      Acc (fun i p => i < n ∧ up i = some p) p := by
    intro m
    induction m with
    | zero =>
      intro p steps root hroot hp hn
      have := (h p).steps_lt hup hp hroot
      omega
    | succ m ih =>
      intro p steps root hroot hp hn
      refine Acc.intro p fun i hi => ?_
      exact ih i (steps + 1) root (by simpa [hi.2] using hroot) hi.1 (by omega)
  refine ⟨fun p => ?_⟩
  by_cases hp : p < n
  · exact hacc n p 0 p rfl hp (by omega)
  · exact Acc.intro p fun i hi => absurd (hup i p hi.2) hp

end Grounded

end PlanChart
