/-
TdSandboxed.Lib.RunLength — runs of equal elements in a list.

`trailing a l` counts the copies of `a` that the list ends with. A run of
length `k` is a block of `k` copies (`RunBefore`); of a longer stretch of
equal elements each block counts, so the last block of a list is the end of
its last stretch that is long enough.

`Latest k l a` says that the last block is of copies of `a`, and `Settled`
adds a value for lists without a block. `settled_snoc` is how that value
follows the list, one element at a time.
-/
import Mathlib.Data.List.DropRight
import Mathlib.Data.List.Infix

namespace TdSandboxed.Lib

variable {α : Type*} [DecidableEq α]

/-- How many copies of `a` the list ends with. -/
def trailing (a : α) (l : List α) : ℕ := (l.rtakeWhile fun x => decide (x = a)).length

/-- There is a block of `k` copies of `a` with `n` elements behind it. -/
def RunBefore (k : ℕ) (l : List α) (a : α) (n : ℕ) : Prop :=
  ∃ pre post, l = pre ++ (List.replicate k a ++ post) ∧ post.length = n

/-- The last block of `k` equal elements is of copies of `a`. -/
def Latest (k : ℕ) (l : List α) (a : α) : Prop :=
  ∃ n, RunBefore k l a n ∧ ∀ b m, RunBefore k l b m → n ≤ m

/-- The value of the last block, or the default where there is none. -/
def Settled (k : ℕ) (l : List α) (default a : α) : Prop :=
  Latest k l a ∨ (∀ b n, ¬RunBefore k l b n) ∧ a = default

section

variable {k n : ℕ} {l : List α} {a b x default : α}

@[simp]
theorem trailing_nil (a : α) : trailing a [] = 0 := rfl

@[simp]
theorem trailing_concat_self (a : α) (l : List α) : trailing a (l ++ [a]) = trailing a l + 1 := by
  simp [trailing]

theorem trailing_concat_of_ne (h : x ≠ a) (l : List α) : trailing a (l ++ [x]) = 0 := by
  simp [trailing, h]

/-- A list ends with copies of one value only. -/
theorem trailing_eq_zero (h : 0 < trailing a l) (hx : x ≠ a) : trailing x l = 0 := by
  obtain rfl | ⟨l, y, rfl⟩ := List.eq_nil_or_concat l
  · rfl
  · rw [List.concat_eq_append] at h ⊢
    by_cases hy : y = a
    · exact trailing_concat_of_ne (hy ▸ hx.symm) l
    · rw [trailing_concat_of_ne hy] at h
      omega

/-- The list ends with a block exactly when it ends with enough copies. -/
theorem runBefore_zero_iff : RunBefore k l a 0 ↔ k ≤ trailing a l := by
  induction l using List.reverseRecOn generalizing k with
  | nil =>
    simp [RunBefore]
  | append_singleton l x ih =>
    cases k with
    | zero =>
      simp [RunBefore]
    | succ k =>
      have hblock : RunBefore (k + 1) (l ++ [x]) a 0 ↔ x = a ∧ RunBefore k l a 0 := by
        simp only [RunBefore, List.length_eq_zero_iff, List.replicate_succ']
        constructor
        · rintro ⟨pre, _, heq, rfl⟩
          rw [List.append_nil, ← List.append_assoc] at heq
          obtain ⟨rfl, hx⟩ := List.append_inj' heq rfl
          exact ⟨List.singleton_inj.mp hx, pre, [], by simp, rfl⟩
        · rintro ⟨rfl, pre, _, rfl, rfl⟩
          exact ⟨pre, [], by simp, rfl⟩
      rw [hblock, ih]
      by_cases hx : x = a
      · subst hx
        simp
      · simp [hx, trailing_concat_of_ne hx]

omit [DecidableEq α] in
/-- A block further in is one of the list without its last element. -/
theorem runBefore_succ_iff : RunBefore k (l ++ [x]) a (n + 1) ↔ RunBefore k l a n := by
  constructor
  · rintro ⟨pre, post, heq, hlength⟩
    obtain ⟨post, y, rfl⟩ := List.eq_nil_or_concat post |>.resolve_left (by rintro rfl; simp at hlength)
    rw [List.concat_eq_append, ← List.append_assoc, ← List.append_assoc] at heq
    obtain ⟨rfl, -⟩ := List.append_inj' heq rfl
    exact ⟨pre, post, by simp, by simpa using hlength⟩
  · rintro ⟨pre, post, rfl, rfl⟩
    exact ⟨pre, post ++ [x], by simp, by simp⟩

theorem runBefore_concat_iff : RunBefore k (l ++ [x]) a n ↔
    n = 0 ∧ k ≤ trailing a (l ++ [x]) ∨ ∃ m, n = m + 1 ∧ RunBefore k l a m := by
  cases n with
  | zero => simp [runBefore_zero_iff]
  | succ n => simp [runBefore_succ_iff]

/-- **One element more.** It ends a block of its own copies, or nothing
changes. -/
theorem latest_concat (hk : 0 < k) :
    Latest k (l ++ [x]) a ↔ if k ≤ trailing x l + 1 then a = x else Latest k l a := by
  have hends : ∀ b, k ≤ trailing b (l ++ [x]) ↔ b = x ∧ k ≤ trailing x l + 1 := by
    intro b
    by_cases hb : x = b
    · subst hb
      simp
    · simp [trailing_concat_of_ne hb, Ne.symm hb, hk.ne']
  simp only [Latest, runBefore_concat_iff, hends]
  split
  · rename_i hblock
    constructor
    · rintro ⟨n, hn, hleast⟩
      obtain rfl : n = 0 := Nat.le_zero.mp (hleast x 0 (.inl ⟨rfl, rfl, hblock⟩))
      obtain ⟨-, ha, -⟩ | ⟨m, hm, -⟩ := hn
      · exact ha
      · omega
    · rintro rfl
      exact ⟨0, .inl ⟨rfl, rfl, hblock⟩, fun b m _ => Nat.zero_le m⟩
  · rename_i hblock
    constructor
    · rintro ⟨n, ⟨-, -, hn⟩ | ⟨m, rfl, hm⟩, hleast⟩
      · exact absurd hn hblock
      · refine ⟨m, hm, fun b m' hm' => ?_⟩
        have := hleast b (m' + 1) (.inr ⟨m', rfl, hm'⟩)
        omega
    · rintro ⟨n, hn, hleast⟩
      refine ⟨n + 1, .inr ⟨n, rfl, hn⟩, ?_⟩
      rintro b m (⟨-, -, hm⟩ | ⟨m', rfl, hm'⟩)
      · exact absurd hm hblock
      · have := hleast b m' hm'
        omega

omit [DecidableEq α] in
theorem settled_nil (hk : 0 < k) : Settled k [] default default := by
  refine .inr ⟨?_, rfl⟩
  rintro b n ⟨pre, post, heq, -⟩
  obtain ⟨-, hrest⟩ := List.append_eq_nil_iff.mp heq.symm
  obtain ⟨hblock, -⟩ := List.append_eq_nil_iff.mp hrest
  rw [List.replicate_eq_nil_iff] at hblock
  omega

omit [DecidableEq α] in
theorem RunBefore.unique (hk : 0 < k) (ha : RunBefore k l a n) (hb : RunBefore k l b n) :
    a = b := by
  obtain ⟨pre, post, rfl, hlength⟩ := ha
  obtain ⟨pre', post', heq, hlength'⟩ := hb
  have hsame : (List.replicate k a ++ post).length = (List.replicate k b ++ post').length := by
    simp [hlength, hlength']
  obtain ⟨-, hrest⟩ := List.append_inj' heq hsame
  obtain ⟨hblock, -⟩ := List.append_inj hrest (by simp)
  exact List.eq_of_mem_replicate (hblock ▸ List.mem_replicate.mpr ⟨hk.ne', rfl⟩)

omit [DecidableEq α] in
/-- A list settles one value. -/
theorem Settled.unique (hk : 0 < k) (ha : Settled k l default a) (hb : Settled k l default b) :
    a = b := by
  obtain ⟨n, hn, hleast⟩ | ⟨hnone, rfl⟩ := ha
  · obtain ⟨m, hm, hleast'⟩ | ⟨hnone, -⟩ := hb
    · obtain rfl : n = m := le_antisymm (hleast b m hm) (hleast' a n hn)
      exact hn.unique hk hm
    · exact absurd hn (hnone a n)
  · obtain ⟨m, hm, -⟩ | ⟨-, rfl⟩ := hb
    · exact absurd hm (hnone b m)
    · rfl

/-- **How the settled value follows the list.** -/
theorem settled_concat (hk : 0 < k) (h : Settled k l default a) :
    Settled k (l ++ [x]) default (if k ≤ trailing x l + 1 then x else a) := by
  split
  · rename_i hblock
    refine .inl ((latest_concat hk).mpr ?_)
    rw [if_pos hblock]
  · rename_i hblock
    obtain hlatest | ⟨hnone, rfl⟩ := h
    · refine .inl ((latest_concat hk).mpr ?_)
      rw [if_neg hblock]
      exact hlatest
    · refine .inr ⟨fun b n hrun => ?_, rfl⟩
      obtain ⟨-, hb⟩ | ⟨m, -, hm⟩ := runBefore_concat_iff.mp hrun
      · by_cases hx : x = b
        · subst hx
          exact hblock (by simpa using hb)
        · rw [trailing_concat_of_ne hx] at hb
          omega
      · exact hnone b m hm

end

end TdSandboxed.Lib
