/-
TdSandboxed.Lib.SortedSlice — binary search in a list, and the slice
between two of its answers.

`bisect p l` is the loop of the bisection functions: the window from `lo`
to `hi` is halved while there is something in it. Everything before the
window satisfies `p` and nothing behind it does (`Window`), so on a list
where `p` holds of a prefix the answer is where it stops to hold.

The slice from one answer to another is then a filter of the list
(`slice_eq_filter`), and filtering commutes with a stable sort
(`filter_insertionSort`). So a search in a sorted list is a scan of the
list it was sorted from.
-/
import Mathlib.Data.List.Sort

namespace TdSandboxed

namespace Lib

variable {α : Type*}

/-! ## Bisection -/

/-- What satisfies `p` comes first. -/
def Prefixed (p : α → Bool) (l : List α) : Prop :=
  l.Pairwise fun a b => p b → p a

def bisectLoop (p : α → Bool) (l : List α) : ℕ → ℕ → ℕ → ℕ
  | 0, lo, _ => lo
  | fuel + 1, lo, hi =>
    if lo < hi then
      if l[(lo + hi) / 2]?.any p then bisectLoop p l fuel ((lo + hi) / 2 + 1) hi
      else bisectLoop p l fuel lo ((lo + hi) / 2)
    else lo

/-- The window never needs more halvings than it has places. -/
def bisect (p : α → Bool) (l : List α) : ℕ := bisectLoop p l l.length 0 l.length

/-- The invariant of the loop. -/
structure Window (p : α → Bool) (l : List α) (lo hi : ℕ) : Prop where
  le : lo ≤ hi
  le_length : hi ≤ l.length
  before : ∀ a ∈ l.take lo, p a
  behind : ∀ a ∈ l.drop hi, p a = false

section

variable {p q : α → Bool} {l : List α} {lo hi mid fuel : ℕ}

theorem Prefixed.split (h : Prefixed p l) {a : α} (ha : l[mid]? = some a) :
    (p a → ∀ b ∈ l.take (mid + 1), p b) ∧ (p a = false → ∀ b ∈ l.drop mid, p b = false) := by
  obtain ⟨hmid, rfl⟩ := List.getElem?_eq_some_iff.mp ha
  have hsplit : (l.take mid ++ l[mid] :: l.drop (mid + 1)).Pairwise fun a b => p b → p a := by
    rw [← List.drop_eq_getElem_cons hmid, List.take_append_drop]
    exact h
  obtain ⟨-, htail, hacross⟩ := List.pairwise_append.mp hsplit
  constructor
  · intro hp b hb
    rw [List.take_succ_eq_append_getElem hmid, List.mem_append, List.mem_singleton] at hb
    obtain hb | rfl := hb
    · exact hacross b hb _ List.mem_cons_self hp
    · exact hp
  · intro hp b hb
    rw [List.drop_eq_getElem_cons hmid, List.mem_cons] at hb
    obtain rfl | hb := hb
    · exact hp
    · by_contra hpb
      have := (List.pairwise_cons.mp htail).1 b hb (by simpa using hpb)
      simp [hp] at this

/-- **Step.** Halving the window keeps the invariant. -/
theorem Window.halve (h : Prefixed p l) (hw : Window p l lo hi) (hlt : lo < hi) :
    (l[(lo + hi) / 2]?.any p → Window p l ((lo + hi) / 2 + 1) hi) ∧
      (¬l[(lo + hi) / 2]?.any p → Window p l lo ((lo + hi) / 2)) := by
  have hlength := hw.le_length
  have hmid : (lo + hi) / 2 < l.length := by omega
  have hget : l[(lo + hi) / 2]? = some l[(lo + hi) / 2] := List.getElem?_eq_getElem hmid
  obtain ⟨hyes, hno⟩ := h.split hget
  rw [hget, Option.any_some]
  refine ⟨fun hp => ⟨by omega, hlength, hyes hp, hw.behind⟩, fun hp => ?_⟩
  exact ⟨by omega, by omega, hw.before, hno (by simpa using hp)⟩

/-- **Run.** With a halving for each place of the window the loop ends on
an empty one. -/
theorem Window.loop (h : Prefixed p l) (hw : Window p l lo hi) (hfuel : hi - lo ≤ fuel) :
    Window p l (bisectLoop p l fuel lo hi) (bisectLoop p l fuel lo hi) := by
  induction fuel generalizing lo hi with
  | zero =>
    obtain rfl : lo = hi := by
      have := hw.le
      omega
    exact hw
  | succ fuel ih =>
    rw [bisectLoop]
    split
    · rename_i hlt
      split
      · rename_i hp
        exact ih ((hw.halve h hlt).1 hp) (by omega)
      · rename_i hp
        exact ih ((hw.halve h hlt).2 hp) (by omega)
    · obtain rfl : lo = hi := by
        have := hw.le
        omega
      exact hw

theorem window_bisect (h : Prefixed p l) : Window p l (bisect p l) (bisect p l) := by
  refine Window.loop h ⟨Nat.zero_le _, le_rfl, ?_, ?_⟩ (by omega)
  · simp
  · simp

/-! ## Slices -/

theorem take_bisect (h : Prefixed p l) : l.take (bisect p l) = l.filter p := by
  have hw := window_bisect h
  conv_rhs => rw [← List.take_append_drop (bisect p l) l, List.filter_append]
  rw [List.filter_eq_self.mpr hw.before,
    List.filter_eq_nil_iff.mpr fun a ha => by simp [hw.behind a ha], List.append_nil]

theorem takeWhile_eq_filter (h : Prefixed p l) : l.takeWhile p = l.filter p := by
  induction l with
  | nil => rfl
  | cons a l ih =>
    obtain ⟨ha, hl⟩ := List.pairwise_cons.mp h
    by_cases hp : p a
    · rw [List.takeWhile_cons_of_pos hp, List.filter_cons_of_pos hp, ih hl]
    · rw [List.takeWhile_cons_of_neg hp]
      refine (List.filter_eq_nil_iff.mpr fun b hb hpb => ?_).symm
      obtain rfl | hb := List.mem_cons.mp hb
      · exact hp hpb
      · exact hp (ha b hb hpb)

/-- The search finds what a walk from the left finds. -/
theorem bisect_eq (h : Prefixed p l) : bisect p l = (l.takeWhile p).length := by
  have hlength : (l.take (bisect p l)).length = bisect p l :=
    List.length_take_of_le (window_bisect h).le_length
  rw [takeWhile_eq_filter h, ← take_bisect h, hlength]

/-- Behind the answer for `p`, inside any front part of the list. -/
theorem drop_bisect_take (h : Prefixed p l) (n : ℕ) :
    (l.take n).drop (bisect p l) = (l.take n).filter fun a => !p a := by
  have hw := window_bisect h
  conv_rhs => rw [← List.take_append_drop (bisect p l) (l.take n), List.filter_append]
  have hfront : ((l.take n).take (bisect p l)).filter (fun a => !p a) = [] := by
    refine List.filter_eq_nil_iff.mpr fun a ha => ?_
    rw [List.take_take, Nat.min_comm, ← List.take_take] at ha
    simp [hw.before a (List.mem_of_mem_take ha)]
  have hback : ((l.take n).drop (bisect p l)).filter (fun a => !p a) =
      (l.take n).drop (bisect p l) := by
    refine List.filter_eq_self.mpr fun a ha => ?_
    rw [List.drop_take] at ha
    simp [hw.behind a (List.mem_of_mem_take ha)]
  rw [hfront, hback, List.nil_append]

/-- **The slice between two answers is a scan of the list.** -/
theorem slice_eq_filter (hp : Prefixed p l) (hq : Prefixed q l) :
    (l.take (bisect q l)).drop (bisect p l) = l.filter fun a => !p a && q a := by
  rw [drop_bisect_take hp, take_bisect hq, List.filter_filter]

end

/-! ## Stable sorting -/

section

variable {r : α → α → Prop} [DecidableRel r] {p : α → Bool}

theorem filter_orderedInsert [IsTrans α r] {a : α} {l : List α} (h : l.Pairwise r) :
    (l.orderedInsert r a).filter p =
      if p a then (l.filter p).orderedInsert r a else l.filter p := by
  induction l with
  | nil => by_cases hp : p a <;> simp [hp]
  | cons b l ih =>
    obtain ⟨hb, hl⟩ := List.pairwise_cons.mp h
    by_cases hab : r a b
    · rw [List.orderedInsert_cons_of_le r l hab]
      by_cases hp : p a
      · -- everything that is left stands behind `b`, and so behind `a`
        have hall : ∀ c ∈ (b :: l).filter p, r a c := by
          intro c hc
          obtain rfl | hc := List.mem_cons.mp (List.mem_filter.mp hc).1
          · exact hab
          · exact IsTrans.trans _ _ _ hab (hb c hc)
        rw [List.filter_cons_of_pos hp, if_pos hp]
        cases hrest : (b :: l).filter p with
        | nil => simp
        | cons c rest =>
          rw [List.orderedInsert_cons_of_le r rest (hall c (hrest ▸ List.mem_cons_self))]
      · rw [List.filter_cons_of_neg hp, if_neg hp]
    · rw [List.orderedInsert_of_not_le r l hab]
      by_cases hpb : p b
      · rw [List.filter_cons_of_pos hpb, List.filter_cons_of_pos hpb, ih hl]
        by_cases hp : p a
        · rw [if_pos hp, if_pos hp, List.orderedInsert_of_not_le r _ hab]
        · rw [if_neg hp, if_neg hp]
      · rw [List.filter_cons_of_neg hpb, List.filter_cons_of_neg hpb, ih hl]

/-- A stable sort does not see what a filter leaves out. -/
theorem filter_insertionSort [IsTrans α r] [Std.Total r] (l : List α) :
    (l.insertionSort r).filter p = (l.filter p).insertionSort r := by
  induction l with
  | nil => rfl
  | cons a l ih =>
    rw [List.insertionSort_cons, filter_orderedInsert (List.pairwise_insertionSort r l), ih]
    by_cases hp : p a
    · rw [if_pos hp, List.filter_cons_of_pos hp, List.insertionSort_cons]
    · rw [if_neg hp, List.filter_cons_of_neg hp]

end

end Lib

end TdSandboxed
