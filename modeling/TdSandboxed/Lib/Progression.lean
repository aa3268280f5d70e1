/-
TdSandboxed.Lib.Progression — values a fixed step apart, and the windows
that begin at them.

`progression a d n` lists `n` values from `a` on, each `d` after the one
before, in any ordered group. Windows of one length that begin at them are
disjoint exactly when the length is no more than the step, or there is one
window at most (`pairwise_disjoint_Ico_progression_iff`).

`fitting a d b` counts the values of a progression of integers that are
`b` at most: what a loop that adds `d` while it may comes to.
-/
import Mathlib

namespace TdSandboxed.Lib

/-- `n` values from `a` on, each `d` after the one before. -/
def progression {α : Type*} [Add α] (a d : α) : ℕ → List α
  | 0 => []
  | n + 1 => a :: progression (a + d) d n

section
variable {α : Type*} [AddCommGroup α] {a d w x : α} {n : ℕ}

@[simp] theorem length_progression : (progression a d n).length = n := by
  induction n generalizing a with
  | zero => rfl
  | succ n ih => simp [progression, ih]

theorem mem_progression : x ∈ progression a d n ↔ ∃ k < n, x = a + k • d := by
  induction n generalizing a with
  | zero => simp [progression]
  | succ n ih =>
    simp only [progression, List.mem_cons, ih]
    constructor
    · rintro (rfl | ⟨k, hk, rfl⟩)
      · exact ⟨0, n.succ_pos, by simp⟩
      · exact ⟨k + 1, Nat.succ_lt_succ hk, by rw [succ_nsmul']; abel⟩
    · rintro ⟨k, hk, rfl⟩
      cases k with
      | zero => exact .inl (by simp)
      | succ k => exact .inr ⟨k, Nat.lt_of_succ_lt_succ hk, by rw [succ_nsmul']; abel⟩

/-- The last of the values. -/
theorem getLast?_progression : (progression a d (n + 1)).getLast? = some (a + n • d) := by
  induction n generalizing a with
  | zero => simp [progression]
  | succ n ih =>
    rw [progression, List.getLast?_cons, ih, succ_nsmul']
    simp [add_assoc]

variable [LinearOrder α] [IsOrderedAddMonoid α]

theorem le_of_mem_progression (hd : 0 ≤ d) (hx : x ∈ progression a d n) : a ≤ x := by
  obtain ⟨k, -, rfl⟩ := mem_progression.mp hx
  exact le_add_of_nonneg_right (nsmul_nonneg hd k)

/-- The values grow. -/
theorem pairwise_lt_progression (hd : 0 < d) : (progression a d n).Pairwise (· < ·) := by
  induction n generalizing a with
  | zero => exact .nil
  | succ n ih =>
    refine List.pairwise_cons.mpr ⟨fun x hx => ?_, ih⟩
    exact lt_of_lt_of_le (lt_add_of_pos_right a hd) (le_of_mem_progression hd.le hx)

/-- Two values are a step apart at least. -/
theorem pairwise_add_le_progression (hd : 0 ≤ d) :
    (progression a d n).Pairwise fun s t => s + d ≤ t := by
  induction n generalizing a with
  | zero => exact .nil
  | succ n ih => exact List.pairwise_cons.mpr ⟨fun x hx => le_of_mem_progression hd hx, ih⟩

/-! ## Windows -/

/-- Windows that begin in order are disjoint when the first ends before the
second begins. -/
theorem disjoint_Ico_add_iff {s t : α} (hst : s ≤ t) :
    Disjoint (Set.Ico s (s + w)) (Set.Ico t (t + w)) ↔ s + w ≤ t := by
  rw [Set.Ico_disjoint_Ico, max_eq_right hst, min_eq_left (add_le_add_left hst w)]

theorem pairwise_disjoint_Ico_progression_iff (hd : 0 < d) :
    ((progression a d n).Pairwise fun s t =>
      Disjoint (Set.Ico s (s + w)) (Set.Ico t (t + w))) ↔ w ≤ d ∨ n ≤ 1 := by
  constructor
  · intro h
    match n, h with
    | 0, _ => exact .inr (Nat.zero_le 1)
    | 1, _ => exact .inr le_rfl
    | n + 2, h =>
      have hnext := (List.pairwise_cons.mp h).1 (a + d) List.mem_cons_self
      rw [disjoint_Ico_add_iff (le_add_of_nonneg_right hd.le)] at hnext
      exact .inl (le_of_add_le_add_left hnext)
  · rintro (hle | hn)
    · refine ((pairwise_lt_progression hd).and (pairwise_add_le_progression hd.le)).imp ?_
      rintro s t ⟨hlt, hstep⟩
      exact (disjoint_Ico_add_iff hlt.le).mpr ((add_le_add_right hle s).trans hstep)
    · match n, hn with
      | 0, _ => exact .nil
      | 1, _ => exact List.pairwise_singleton _ _

end

/-! ## What fits -/

/-- How many values of the progression from `a` are `b` at most. -/
def fitting (a d b : ℤ) : ℕ := ((b - a) / d + 1).toNat

variable {a d b : ℤ}

theorem lt_fitting_iff (hd : 0 < d) {k : ℕ} : k < fitting a d b ↔ a + k * d ≤ b := by
  have hdiv : (k : ℤ) ≤ (b - a) / d ↔ k * d ≤ b - a := Int.le_ediv_iff_mul_le hd
  unfold fitting
  constructor
  · intro h
    have := hdiv.mp (by omega)
    linarith
  · intro h
    have := hdiv.mpr (by linarith)
    omega

/-- One value that fits, and those after it. -/
theorem fitting_of_le (hd : 0 < d) (h : a ≤ b) : fitting a d b = fitting (a + d) d b + 1 := by
  have hdiv : (b - a) / d = (b - (a + d)) / d + 1 := by
    have hsplit : b - a = b - (a + d) + 1 * d := by ring
    rw [hsplit, Int.add_mul_ediv_right _ _ hd.ne']
  have hnonneg : 0 ≤ (b - a) / d := Int.ediv_nonneg (by omega) hd.le
  unfold fitting
  omega

end TdSandboxed.Lib
