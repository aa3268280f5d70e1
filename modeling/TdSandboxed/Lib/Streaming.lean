/-
TdSandboxed.Lib.Streaming — machines that take a sequence in one element
at a time, and what they compute of the whole of it.

A machine is described by `after`, its state as a function of the history.
One equation for a step, `step (after xs) x = after (xs ++ [x])`, gives
every run (`foldlM_eq_after`). The rest are the functions of a history
that such states are made of, each with its value for one more element:

* `push`, a buffer that keeps the last entries, is `rtake` of the history;
* `changes` are the steps between neighbours;
* `onPrefixes` are the values so far, from the prefix of a given length on;
* `smoothed` is exponential smoothing with a seed, as one weighted sum;
* `lastRun` is what came since the last change of a key;
* `weightedMean` is a ratio of two sums.
-/
import Mathlib.Algebra.BigOperators.Fin
import Mathlib.Algebra.Order.Field.Basic
import Mathlib.Algebra.Order.BigOperators.Group.List
import Mathlib.Data.List.DropRight
import Mathlib.Data.List.Infix
import Mathlib.Data.List.Induction
import Mathlib.Tactic.Linarith
import Mathlib.Tactic.Positivity
import Mathlib.Tactic.Ring

namespace TdSandboxed.Lib

variable {α β σ ε : Type*}

/-- **The state after a history.** A machine that keeps to `after` on good
elements is in it after every run of good elements. -/
theorem foldlM_eq_after {step : σ → α → Except ε σ} {good : α → Prop} (after : List α → σ)
    (hstep : ∀ xs x, (∀ y ∈ xs, good y) → good x → step (after xs) x = .ok (after (xs ++ [x])))
    (xs : List α) (hxs : ∀ x ∈ xs, good x) : xs.foldlM step (after []) = .ok (after xs) := by
  induction xs using List.reverseRecOn with
  | nil => rfl
  | append_singleton xs x ih =>
    rw [List.foldlM_append, ih (fun y hy => hxs y (by simp [hy]))]
    simp only [List.foldlM_cons, List.foldlM_nil]
    rw [show (Except.ok (after xs) >>= fun s => step s x >>= pure) = step (after xs) x >>= pure
      from rfl, hstep xs x (fun y hy => hxs y (by simp [hy])) (hxs x (by simp))]
    rfl

/-! ## Buffers -/

/-- One more entry in a buffer for `size` entries: the oldest one makes
room. -/
def push (size : ℕ) (buffer : List α) (x : α) : List α :=
  (buffer ++ [x]).rtake size

@[simp] theorem length_rtake (n : ℕ) (xs : List α) : (xs.rtake n).length = min n xs.length := by
  simp only [List.rtake, List.length_drop]
  omega

theorem push_rtake (size : ℕ) (xs : List α) (x : α) :
    push size (xs.rtake size) x = (xs ++ [x]).rtake size := by
  cases size with
  | zero => simp [push]
  | succ size =>
    have : (xs.rtake (size + 1)).rtake size = xs.rtake size := by
      simp only [List.rtake, List.drop_drop, List.length_drop]
      congr 1
      omega
    rw [push, List.rtake_concat_succ, List.rtake_concat_succ, this]

/-- The oldest entry of a full buffer. -/
theorem rtake_eq_cons {n : ℕ} {xs : List α} {x : α}
    (h : xs[xs.length - n]? = some x) : ∃ rest, xs.rtake n = x :: rest := by
  obtain ⟨hlt, hget⟩ := List.getElem?_eq_some_iff.mp h
  exact ⟨_, by rw [List.rtake, List.drop_eq_getElem_cons hlt, hget]⟩

/-! ## Neighbours -/

/-- What lies between each element and the next. -/
def changes (f : α → α → β) (xs : List α) : List β :=
  List.zipWith f xs xs.tail

@[simp] theorem changes_nil (f : α → α → β) : changes f [] = [] := rfl

@[simp] theorem length_changes (f : α → α → β) (xs : List α) :
    (changes f xs).length = xs.length - 1 := by
  simp [changes]

theorem changes_concat (f : α → α → β) {xs : List α} {x : α} (h : xs.getLast? = some x) (y : α) :
    changes f (xs ++ [y]) = changes f xs ++ [f x y] := by
  induction xs with
  | nil => simp at h
  | cons a xs ih =>
    cases xs with
    | nil =>
      obtain rfl : a = x := by simpa using h
      rfl
    | cons b xs =>
      have := ih (by simpa using h)
      simpa [changes] using this

theorem forall_mem_changes {f : α → α → β} {P : β → Prop} {xs : List α}
    (h : ∀ x ∈ xs, ∀ y ∈ xs, P (f x y)) : ∀ b ∈ changes f xs, P b := by
  induction xs with
  | nil => simp
  | cons x xs ih =>
    cases xs with
    | nil => simp [changes]
    | cons y xs =>
      intro b hb
      have hcons : changes f (x :: y :: xs) = f x y :: changes f (y :: xs) := rfl
      rw [hcons, List.mem_cons] at hb
      cases hb with
      | inl heq =>
        rw [heq]
        exact h x (by simp) y (by simp)
      | inr hmem => exact ih (fun a ha c hc => h a (by simp [ha]) c (by simp [hc])) b hmem

/-! ## Values so far -/

/-- The values of `f` on the prefixes of at least `n` elements. -/
def onPrefixes (f : List α → β) (n : ℕ) (xs : List α) : List β :=
  (xs.inits.drop n).map f

@[simp] theorem length_onPrefixes (f : List α → β) (n : ℕ) (xs : List α) :
    (onPrefixes f n xs).length = xs.length + 1 - n := by
  simp [onPrefixes]

theorem onPrefixes_of_lt (f : List α → β) {n : ℕ} {xs : List α} (h : xs.length < n) :
    onPrefixes f n xs = [] :=
  List.eq_nil_of_length_eq_zero (by rw [length_onPrefixes]; omega)

theorem onPrefixes_concat (f : List α → β) {n : ℕ} {xs : List α} (x : α)
    (h : n ≤ xs.length + 1) :
    onPrefixes f n (xs ++ [x]) = onPrefixes f n xs ++ [f (xs ++ [x])] := by
  have hlen : n ≤ xs.inits.length := by simpa using h
  simp [onPrefixes, List.inits_append, List.drop_append_of_le_length hlen]

theorem getElem?_onPrefixes (f : List α → β) {n i : ℕ} {xs : List α} (h : n + i ≤ xs.length) :
    (onPrefixes f n xs)[i]? = some (f (xs.take (n + i))) := by
  have hlt : n + i < xs.inits.length := by simp; omega
  rw [onPrefixes, List.getElem?_map, List.getElem?_drop, List.getElem?_eq_getElem hlt]
  simp

theorem mem_onPrefixes {f : List α → β} {n : ℕ} {xs : List α} {b : β}
    (h : b ∈ onPrefixes f n xs) : ∃ ys, ys <+: xs ∧ n ≤ ys.length ∧ f ys = b := by
  obtain ⟨ys, hys, rfl⟩ := List.mem_map.mp h
  obtain ⟨i, hi, rfl⟩ := List.mem_iff_getElem.mp hys
  refine ⟨_, (List.mem_inits _ xs).mp (List.mem_of_mem_drop hys), ?_, rfl⟩
  have hlt : n + i < xs.inits.length := by
    rw [List.length_drop] at hi
    omega
  simp only [List.getElem_drop, List.getElem_inits, List.length_take]
  rw [List.length_inits] at hlt
  omega

/-! ## Smoothing -/

section
variable {F : Type*} [Field F]

/-- The sum of a sequence with weights that fade by `q` into the past. -/
def faded (q : F) (xs : List F) : F :=
  ∑ i : Fin xs.length, q ^ (xs.length - 1 - i) * xs[i]

/-- Exponential smoothing: the first `n` elements are a seed with weight
`u`, every later element counts `w`, and all fade by `q`. -/
def smoothed (q u w : F) (n : ℕ) (xs : List F) : F :=
  q ^ (xs.length - n) * (u * (xs.take n).sum) + w * faded q (xs.drop n)

@[simp] theorem faded_nil (q : F) : faded q [] = 0 := by
  simp [faded]

theorem faded_concat (q : F) (xs : List F) (x : F) :
    faded q (xs ++ [x]) = q * faded q xs + x := by
  have hlen : (xs ++ [x]).length = xs.length + 1 := by simp
  unfold faded
  rw [← Equiv.sum_comp (finCongr hlen.symm), Fin.sum_univ_castSucc, Finset.mul_sum]
  congr 1
  · refine Finset.sum_congr rfl fun i _ => ?_
    have hi := i.isLt
    have hpow : xs.length - i = xs.length - 1 - i + 1 := by omega
    simp [hpow, pow_succ]
    ring
  · simp

/-- The seed of a smoothed sequence. -/
theorem smoothed_seed (q u w : F) {n : ℕ} {xs : List F} (h : xs.length = n) :
    smoothed q u w n xs = u * xs.sum := by
  simp [smoothed, ← h]

/-- After the seed, what there is fades and the new element counts `w`. -/
theorem smoothed_concat (q u w : F) {n : ℕ} {xs : List F} (h : n ≤ xs.length) (x : F) :
    smoothed q u w n (xs ++ [x]) = q * smoothed q u w n xs + w * x := by
  have hpow : xs.length + 1 - n = xs.length - n + 1 := by omega
  simp only [smoothed, List.length_append, List.length_singleton, hpow, pow_succ,
    List.take_append_of_le_length h, List.drop_append_of_le_length h, faded_concat]
  ring

/-- Induction over the sequences that have a seed. -/
@[elab_as_elim]
theorem seeded_induction {α : Type*} {n : ℕ} {motive : (xs : List α) → n ≤ xs.length → Prop}
    (seed : ∀ xs (h : xs.length = n), motive xs h.ge)
    (concat : ∀ xs x (h : n ≤ xs.length), motive xs h →
      motive (xs ++ [x]) (h.trans (by simp))) (xs : List α) (h : n ≤ xs.length) :
    motive xs h := by
  induction xs using List.reverseRecOn with
  | nil => exact seed [] (Nat.le_zero.mp h).symm
  | append_singleton xs x ih =>
    by_cases hlen : n ≤ xs.length
    · exact concat xs x hlen (ih hlen)
    · refine seed _ ?_
      simp only [List.length_append, List.length_singleton] at h ⊢
      omega

variable [LinearOrder F] [IsStrictOrderedRing F] {q u w : F} {n : ℕ}

theorem smoothed_pos (hq : 0 ≤ q) (hu : 0 < u) (hw : 0 < w) (hn : 0 < n) {xs : List F}
    (hlen : n ≤ xs.length) (hxs : ∀ x ∈ xs, 0 < x) : 0 < smoothed q u w n xs := by
  induction xs, hlen using seeded_induction with
  | seed xs hlen =>
    rw [smoothed_seed _ _ _ hlen]
    have hne : xs ≠ [] := List.ne_nil_of_length_pos (by omega)
    exact mul_pos hu (List.sum_pos xs hxs hne)
  | concat xs x hlen ih =>
    rw [smoothed_concat _ _ _ hlen]
    have hprev := ih (fun y hy => hxs y (by simp [hy]))
    have hx := hxs x (by simp)
    positivity

theorem smoothed_nonneg (hq : 0 ≤ q) (hu : 0 ≤ u) (hw : 0 ≤ w) {xs : List F}
    (hlen : n ≤ xs.length) (hxs : ∀ x ∈ xs, 0 ≤ x) : 0 ≤ smoothed q u w n xs := by
  induction xs, hlen using seeded_induction with
  | seed xs hlen =>
    rw [smoothed_seed _ _ _ hlen]
    exact mul_nonneg hu (List.sum_nonneg hxs)
  | concat xs x hlen ih =>
    rw [smoothed_concat _ _ _ hlen]
    have hprev := ih (fun y hy => hxs y (by simp [hy]))
    have hx := hxs x (by simp)
    positivity

/-- A smoothed mean stays under a bound of its elements. -/
theorem smoothed_le (hq : 0 ≤ q) (hu : 0 ≤ u) (hw : 0 ≤ w) (hseed : u * n = 1) (hsum : q + w = 1)
    {c : F} {xs : List F} (hlen : n ≤ xs.length) (hxs : ∀ x ∈ xs, x ≤ c) :
    smoothed q u w n xs ≤ c := by
  induction xs, hlen using seeded_induction with
  | seed xs hlen =>
    rw [smoothed_seed _ _ _ hlen]
    have hle := List.sum_le_card_nsmul xs c hxs
    calc u * xs.sum ≤ u * (xs.length • c) := mul_le_mul_of_nonneg_left hle hu
      _ = u * n * c := by rw [hlen, nsmul_eq_mul, mul_assoc]
      _ = c := by rw [hseed, one_mul]
  | concat xs x hlen ih =>
    rw [smoothed_concat _ _ _ hlen]
    have hprev := ih (fun y hy => hxs y (by simp [hy]))
    have hx := hxs x (by simp)
    calc q * smoothed q u w n xs + w * x ≤ q * c + w * c :=
          add_le_add (mul_le_mul_of_nonneg_left hprev hq) (mul_le_mul_of_nonneg_left hx hw)
      _ = c := by rw [← add_mul, hsum, one_mul]

/-- Where two readings of a sequence stay together under a third, so do
their smoothed values. -/
theorem smoothed_map_add_le (hq : 0 ≤ q) (hu : 0 ≤ u) (hw : 0 ≤ w) {α : Type*} {f g k : α → F}
    {xs : List α} (hlen : n ≤ xs.length) (hxs : ∀ x ∈ xs, f x + g x ≤ k x) :
    smoothed q u w n (xs.map f) + smoothed q u w n (xs.map g) ≤ smoothed q u w n (xs.map k) := by
  induction xs, hlen using seeded_induction with
  | seed xs hlen =>
    have hmap : ∀ h : α → F, (xs.map h).length = n := fun h => by simp [hlen]
    rw [smoothed_seed _ _ _ (hmap f), smoothed_seed _ _ _ (hmap g), smoothed_seed _ _ _ (hmap k),
      ← mul_add, ← List.sum_map_add]
    exact mul_le_mul_of_nonneg_left (List.sum_le_sum hxs) hu
  | concat xs x hlen ih =>
    have hmap : ∀ h : α → F, n ≤ (xs.map h).length := fun h => by simp [hlen]
    simp only [List.map_append, List.map_cons, List.map_nil]
    rw [smoothed_concat _ _ _ (hmap f), smoothed_concat _ _ _ (hmap g),
      smoothed_concat _ _ _ (hmap k)]
    have hprev := mul_le_mul_of_nonneg_left (ih (fun y hy => hxs y (by simp [hy]))) hq
    have hx := mul_le_mul_of_nonneg_left (hxs x (by simp)) hw
    linarith

end

/-! ## The last run -/

section
variable {κ : Type*} [DecidableEq κ]

/-- The longest end of a history whose elements all have the key of the last. -/
def lastRun (key : α → κ) (xs : List α) : List α :=
  match xs.getLast? with
  | none => []
  | some x => xs.rtakeWhile fun y => key y = key x

@[simp] theorem lastRun_nil (key : α → κ) : lastRun key [] = [] := rfl

/-- An element goes on with the run, or begins the next. -/
theorem lastRun_concat (key : α → κ) (xs : List α) (x : α) :
    lastRun key (xs ++ [x]) =
      (if xs.getLast?.map key = some (key x) then lastRun key xs else []) ++ [x] := by
  have hrun : lastRun key (xs ++ [x]) = xs.rtakeWhile (fun y => key y = key x) ++ [x] := by
    simp [lastRun]
  rw [hrun]
  congr 1
  induction xs using List.reverseRecOn with
  | nil => simp
  | append_singleton xs y =>
    by_cases hkey : key y = key x
    · simp [lastRun, hkey]
    · simp [hkey]

end

/-! ## Weighted means -/

section
variable {F : Type*} [Field F]

/-- The mean of `f`, each element with its weight. -/
def weightedMean (f w : α → F) (xs : List α) : F :=
  (xs.map fun x => f x * w x).sum / (xs.map w).sum

variable [LinearOrder F] [IsStrictOrderedRing F]

/-- A weighted mean stays between the bounds of its elements. -/
theorem weightedMean_mem_Icc {f w : α → F} {xs : List α} {lo hi : F} (hne : xs ≠ [])
    (hw : ∀ x ∈ xs, 0 < w x) (hlo : ∀ x ∈ xs, lo ≤ f x) (hhi : ∀ x ∈ xs, f x ≤ hi) :
    weightedMean f w xs ∈ Set.Icc lo hi := by
  have hpos : 0 < (xs.map w).sum :=
    List.sum_pos _ (by simpa using hw) (by simpa using hne)
  have hle : (xs.map fun x => lo * w x).sum ≤ (xs.map fun x => f x * w x).sum :=
    List.sum_le_sum fun x hx => mul_le_mul_of_nonneg_right (hlo x hx) (hw x hx).le
  have hge : (xs.map fun x => f x * w x).sum ≤ (xs.map fun x => hi * w x).sum :=
    List.sum_le_sum fun x hx => mul_le_mul_of_nonneg_right (hhi x hx) (hw x hx).le
  rw [List.sum_map_mul_left] at hle hge
  exact ⟨(le_div_iff₀ hpos).mpr hle, (div_le_iff₀ hpos).mpr hge⟩

end

end TdSandboxed.Lib
