/-
TdSandboxed.Lib.Gather — results that are collected as they complete.

Numbered tasks complete in some order. Each result is kept under its number,
and in the end they are read in the order of the numbers. `gather_eq_ok_iff`:
the order of completion does not show, except in which of several errors
ends the run.
-/
import Mathlib.Data.List.Perm.Basic
import TdSandboxed.Lib.Assoc
import TdSandboxed.Lib.OrderedDict

namespace TdSandboxed.Lib

variable {ε β : Type} {f : ℕ → Except ε β} {order : List ℕ} {n : ℕ} {missing : ε}

/-- Keeps the results in the order of completion, and reads them in the order
of the numbers. -/
def gather (missing : ε) (f : ℕ → Except ε β) (order : List ℕ) (n : ℕ) : Except ε (List β) := do
  let found ← order.foldlM (fun (found : OrderedDict ℕ β) i => (f i).map (found.set i)) .empty
  (List.range n).mapM fun i =>
    match found.get? i with
    | some y => .ok y
    | none => .error missing

/-- A result that has been kept is that of its number. -/
theorem found_of_foldlM {found : OrderedDict ℕ β}
    (h : order.foldlM (fun (found : OrderedDict ℕ β) i => (f i).map (found.set i)) .empty =
      .ok found) : ∀ i ∈ order, ∃ y, f i = .ok y ∧ found.get? i = some y := by
  refine foldlM_rule (f := fun (found : OrderedDict ℕ β) i => (f i).map (found.set i))
    (fun before found => ∀ i ∈ before, ∃ y, f i = .ok y ∧ found.get? i = some y) ?_ ?_ h
  · intro before i _ found next hbefore hstep j hj
    obtain ⟨y, hy, rfl⟩ := map_eq_ok.mp hstep
    rw [OrderedDict.get?_set]
    by_cases hji : j = i
    · exact ⟨y, hji ▸ hy, if_pos hji⟩
    · rw [if_neg hji]
      have hmem : j ∈ before := by simpa [hji] using hj
      exact hbefore j hmem
  · intro i hi
    cases hi

/-- **The order of completion does not show.** -/
theorem gather_eq_ok_iff (horder : order.Perm (List.range n)) {ys : List β} :
    gather missing f order n = .ok ys ↔ (List.range n).mapM f = .ok ys := by
  have hread : ∀ found : OrderedDict ℕ β,
      order.foldlM (fun (found : OrderedDict ℕ β) i => (f i).map (found.set i)) .empty = .ok found →
      (List.range n).mapM (fun i => match found.get? i with
        | some y => (.ok y : Except ε β)
        | none => .error missing) = (List.range n).mapM f := by
    intro found hfound
    refine mapM_congr fun i hi => ?_
    obtain ⟨y, hy, hget⟩ := found_of_foldlM hfound i (horder.mem_iff.mpr hi)
    rw [hget, hy]
  rw [gather, bind_eq_ok]
  constructor
  · rintro ⟨found, hfound, hys⟩
    rw [← hread found hfound]
    exact hys
  · intro hys
    obtain ⟨found, hfound⟩ := foldlM_returns (l := order)
      (f := fun (found : OrderedDict ℕ β) i => (f i).map (found.set i)) (fun _ => True)
      (fun i hi found _ => by
        obtain ⟨y, -, hy⟩ := exists_right_of_mem (forall₂_of_mapM hys) (horder.mem_iff.mp hi)
        exact ⟨found.set i y, map_eq_ok.mpr ⟨y, hy, rfl⟩, trivial⟩) trivial (s := .empty)
    exact ⟨found, hfound, (hread found hfound).trans hys⟩

/-- The tasks that are numbered by the elements of a list. -/
theorem mapM_range {α : Type} {g : α → Except ε β} {l : List α}
    (h : ∀ i a, l[i]? = some a → f i = g a) : (List.range l.length).mapM f = l.mapM g := by
  induction l generalizing f with
  | nil => rfl
  | cons a l ih =>
    rw [List.length_cons, List.range_succ_eq_map, List.mapM_cons, List.mapM_cons, List.mapM_map,
      h 0 a rfl, ← ih fun i b hi => h (i + 1) b hi]
    rfl

end TdSandboxed.Lib
