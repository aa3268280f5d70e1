/-
TdSandboxed.Lib.Custody — things that are in the hands of tasks.

`cs.flatMap f` lists what the tasks `cs` hold, each with `f` of its local
state. A step of one task exchanges what that task holds, and nothing else:
`flatMap_set_perm`, and its two readings by count and by length.
-/
import Mathlib.Data.List.Flatten
import Mathlib.Data.List.Perm.Basic

namespace TdSandboxed.Lib

variable {α τ : Type*} {f : τ → List α} {cs : List τ} {i : ℕ} {c : τ}

/-- A step of one task gives back what it held and takes what it holds. -/
theorem flatMap_set_perm (hc : cs[i]? = some c) (c' : τ) :
    ((cs.set i c').flatMap f ++ f c).Perm (cs.flatMap f ++ f c') := by
  induction cs generalizing i with
  | nil => simp at hc
  | cons d ds ih =>
    cases i with
    | zero =>
      obtain rfl : d = c := by simpa using hc
      simp only [List.set_cons_zero, List.flatMap_cons, List.append_assoc]
      refine List.perm_append_comm.trans ?_
      rw [List.append_assoc]
      exact List.perm_append_comm_assoc ..
    | succ i =>
      simp only [List.set_cons_succ, List.flatMap_cons, List.append_assoc]
      exact (ih (by simpa using hc)).append_left _

theorem count_flatMap_set [DecidableEq α] (hc : cs[i]? = some c) (c' : τ) (x : α) :
    ((cs.set i c').flatMap f).count x + (f c).count x =
      (cs.flatMap f).count x + (f c').count x := by
  simpa using (flatMap_set_perm hc c').count_eq x

theorem length_flatMap_set (hc : cs[i]? = some c) (c' : τ) :
    ((cs.set i c').flatMap f).length + (f c).length = (cs.flatMap f).length + (f c').length := by
  simpa using (flatMap_set_perm hc c').length_eq

theorem length_le_flatMap (hc : cs[i]? = some c) : (f c).length ≤ (cs.flatMap f).length := by
  obtain ⟨before, after, rfl⟩ := List.append_of_mem (List.mem_of_getElem? hc)
  simp only [List.flatMap_append, List.flatMap_cons, List.length_append]
  omega

end TdSandboxed.Lib
