/-
TdSandboxed.Backtesting.WalkForwardTheorems — the folds that `generate`
returns (`backtesting/walk_forward.py`).

The ends of the train windows are a progression, and each fold follows
from its one (`foldsFrom_eq`). So the folds are as they should be, but for
their test windows: these overlap as soon as there are two and the step is
shorter than the test window (`generate_lawful_iff`).
-/
import TdSandboxed.Backtesting.WalkForward
import TdSandboxed.Lib.Assoc

namespace TdSandboxed

open Lib Dataset

/-! ## What folds should be -/

/-- Folds of one walk-forward analysis: inside the range, in order, each
test window after its train window and apart from the others, and none
left out at the end. -/
structure LawfulFolds (r : FoldRequest) (folds : List FoldSpec) : Prop where
  nonempty : folds ≠ []
  inside : ∀ f ∈ folds, r.totalStart ≤ f.trainStart ∧ f.testEnd ≤ r.totalEnd
  increasing : folds.Pairwise fun f g =>
    f.trainStart ≤ g.trainStart ∧ f.trainEnd < g.trainEnd ∧ f.testStart < g.testStart ∧
      f.testEnd < g.testEnd
  disjoint : folds.Pairwise fun f g =>
    Disjoint (Set.Ico f.testStart f.testEnd) (Set.Ico g.testStart g.testEnd)
  adjacent : ∀ f ∈ folds, f.trainEnd = f.testStart ∧ f.testEnd = f.testStart + r.testWindow
  train : ∀ f ∈ folds, (r.mode = "rolling" → f.trainEnd = f.trainStart + r.trainWindow) ∧
    (r.mode = "anchored" → f.trainStart = r.totalStart)
  maximal : ∀ f ∈ folds.getLast?, r.totalEnd < f.trainEnd + r.step + r.testWindow
  /-- Bars are selected from a start to before an end. -/
  out_of_sample : ∀ f ∈ folds, ∀ bar : ℤ,
    ¬ (bar ∈ Set.Ico f.trainStart f.trainEnd ∧ bar ∈ Set.Ico f.testStart f.testEnd)

namespace FoldRequest

variable {r : FoldRequest} {folds : List FoldSpec}

/-- How many folds there are. -/
def count (r : FoldRequest) : ℕ :=
  fitting (r.totalStart + r.trainWindow) r.step (r.totalEnd - r.testWindow)

/-- The arguments that `generate` takes. The first test window that is too
late still ends within the datetimes. -/
structure Accepted (r : FoldRequest) : Prop where
  mode : r.mode = "anchored" ∨ r.mode = "rolling"
  fits : r.trainWindow + r.testWindow ≤ r.totalEnd - r.totalStart
  step_pos : 0 < r.step
  in_range : r.totalStart + r.trainWindow + r.count * r.step + r.testWindow ≤ maxInstant

/-- The start of the train window that ends at `trainEnd`. -/
def trainStartOf (r : FoldRequest) (trainEnd : ℤ) : ℤ :=
  if r.mode = "rolling" then trainEnd - r.trainWindow else r.totalStart

/-- The fold whose train window ends at `trainEnd`. -/
def foldAt (r : FoldRequest) (htest : 0 < r.testWindow) (trainEnd : ℤ) : FoldSpec where
  trainStart := r.trainStartOf trainEnd
  trainEnd := trainEnd
  testStart := trainEnd
  testEnd := trainEnd + r.testWindow
  trainEnd_le := le_refl trainEnd
  testStart_lt := lt_add_of_pos_right trainEnd htest

/-! ## The loop -/

theorem plus_of_le {t d : ℤ} (hmin : minInstant ≤ t + d) (hmax : t + d ≤ maxInstant) :
    plus t d = .ok (t + d) := if_pos ⟨hmin, hmax⟩

theorem plus_of_lt {t d : ℤ} (hmax : maxInstant < t + d) : plus t d = .error .dateOverflow :=
  if_neg fun h => absurd h.2 (not_le.mpr hmax)

theorem build_foldAt (htest : 0 < r.testWindow) (trainEnd : ℤ) :
    FoldSpec.build (r.trainStartOf trainEnd) trainEnd trainEnd (trainEnd + r.testWindow) =
      .ok (r.foldAt htest trainEnd) := by
  simp [FoldSpec.build, foldAt, htest]

/-- The start of the train window moves with its end, or stays. -/
theorem next_trainStart (hstep : 0 < r.step) {trainEnd : ℤ}
    (hstart : minInstant ≤ r.trainStartOf trainEnd)
    (hmax : r.trainStartOf trainEnd + r.step ≤ maxInstant) :
    (if r.mode = "rolling" then plus (r.trainStartOf trainEnd) r.step
      else .ok (r.trainStartOf trainEnd)) = .ok (r.trainStartOf (trainEnd + r.step)) := by
  by_cases hmode : r.mode = "rolling"
  · have hplus := plus_of_le (hstart.trans (le_add_of_nonneg_right hstep.le)) hmax
    simp only [trainStartOf, hmode, if_true] at hplus ⊢
    rw [hplus]
    congr 1
    ring
  · simp only [trainStartOf, hmode, if_false]

theorem trainStartOf_bounds (htrain : 0 < r.trainWindow) {trainEnd : ℤ}
    (hstart : r.totalStart + r.trainWindow ≤ trainEnd) :
    r.totalStart ≤ r.trainStartOf trainEnd ∧ r.trainStartOf trainEnd < trainEnd := by
  unfold trainStartOf
  split <;> constructor <;> omega

/-- **The loop from `trainEnd` on**: the folds of a progression, or the
overflow of the first test window that is too late. -/
theorem foldsFrom_eq (htrain : 0 < r.trainWindow) (htest : 0 < r.testWindow) (hstep : 0 < r.step)
    {n : ℕ} {trainEnd : ℤ} (hn : fitting trainEnd r.step (r.totalEnd - r.testWindow) = n)
    (hstart : r.totalStart + r.trainWindow ≤ trainEnd) :
    r.foldsFrom hstep (r.trainStartOf trainEnd) trainEnd =
      if trainEnd + n * r.step + r.testWindow ≤ maxInstant then
        .ok ((progression trainEnd r.step n).map (r.foldAt htest))
      else .error .dateOverflow := by
  have hmin := r.totalStart_ge
  have hmax := r.totalEnd_le
  induction n generalizing trainEnd with
  | zero =>
    have hlate : r.totalEnd < trainEnd + r.testWindow := by
      by_contra hle
      have := (lt_fitting_iff (a := trainEnd) (b := r.totalEnd - r.testWindow) (k := 0) hstep).mpr
        (by push_cast; linarith)
      omega
    rw [foldsFrom]
    by_cases hend : trainEnd + r.testWindow ≤ maxInstant
    · rw [plus_of_le (by omega) hend]
      simp [hlate, hend, progression]
    · rw [plus_of_lt (not_le.mp hend)]
      simp [hend]
  | succ n ih =>
    have hfits : trainEnd + r.testWindow ≤ r.totalEnd := by
      have := (lt_fitting_iff (a := trainEnd) (b := r.totalEnd - r.testWindow) (k := 0) hstep).mp
        (by omega)
      push_cast at this
      linarith
    have hrest : fitting (trainEnd + r.step) r.step (r.totalEnd - r.testWindow) = n := by
      have := fitting_of_le hstep (a := trainEnd) (b := r.totalEnd - r.testWindow) (by linarith)
      omega
    have hlast : trainEnd + (n + 1 : ℕ) * r.step + r.testWindow =
        trainEnd + r.step + n * r.step + r.testWindow := by
      push_cast
      ring
    obtain ⟨hfirst, hbefore⟩ := trainStartOf_bounds htrain hstart
    rw [foldsFrom, plus_of_le (by omega) (hfits.trans hmax), hlast]
    simp only [not_lt.mpr hfits, if_false, build_foldAt htest]
    by_cases hnext : trainEnd + r.step ≤ maxInstant
    · rw [plus_of_le (by omega) hnext]
      simp only [next_trainStart hstep (hmin.trans hfirst) (by omega),
        ih hrest (hstart.trans (le_add_of_nonneg_right hstep.le))]
      split <;> rfl
    · rw [plus_of_lt (not_le.mp hnext)]
      have hover : ¬ trainEnd + r.step + n * r.step + r.testWindow ≤ maxInstant := by
        have := mul_nonneg (Int.natCast_nonneg n) hstep.le
        omega
      simp [hover]

/-! ## The folds -/

theorem count_pos (hfits : r.trainWindow + r.testWindow ≤ r.totalEnd - r.totalStart)
    (hstep : 0 < r.step) : 0 < r.count :=
  (lt_fitting_iff hstep).mpr (by push_cast; linarith)

theorem trainStartOf_first : r.trainStartOf (r.totalStart + r.trainWindow) = r.totalStart := by
  unfold trainStartOf
  split
  · ring
  · rfl

/-- What `generate` comes to once its checks are passed. -/
theorem generate_eq (htrain : 0 < r.trainWindow) (htest : 0 < r.testWindow)
    (hmode : r.mode = "anchored" ∨ r.mode = "rolling")
    (hfits : r.trainWindow + r.testWindow ≤ r.totalEnd - r.totalStart) (hstep : 0 < r.step) :
    r.generate =
      if r.totalStart + r.trainWindow + r.count * r.step + r.testWindow ≤ maxInstant then
        .ok ((progression (r.totalStart + r.trainWindow) r.step r.count).map (r.foldAt htest))
      else .error .dateOverflow := by
  have hmin := r.totalStart_ge
  have hmax := r.totalEnd_le
  have hneeded : plusTimedelta r.trainWindow r.testWindow = .ok (r.trainWindow + r.testWindow) := by
    refine if_pos ?_
    unfold minInstant maxInstant microsecondsPerDay at *
    omega
  have hloop := foldsFrom_eq htrain htest hstep (n := r.count) rfl (le_refl _)
  rw [trainStartOf_first] at hloop
  have hnonempty : ((progression (r.totalStart + r.trainWindow) r.step r.count).map
      (r.foldAt htest)).isEmpty = false := by
    have hpos := count_pos hfits hstep
    cases hn : r.count with
    | zero => omega
    | succ n => rfl
  rw [generate, if_neg (by simp only [not_and_or, not_not]; exact hmode), hneeded]
  simp only [bind, Except.bind, not_lt.mpr hfits, if_false, hstep, dif_pos,
    plus_of_le (by omega : minInstant ≤ r.totalStart + r.trainWindow) (by omega), hloop]
  by_cases hend : r.totalStart + r.trainWindow + r.count * r.step + r.testWindow ≤ maxInstant
  · simp only [hend, if_true, hnonempty, Bool.false_eq_true, if_false]
  · simp only [hend, if_false]

/-- **What `generate` accepts.** -/
theorem accepted_iff (htrain : 0 < r.trainWindow) (htest : 0 < r.testWindow) :
    r.Accepted ↔ ∃ folds, r.generate = .ok folds := by
  constructor
  · rintro ⟨hmode, hfits, hstep, hend⟩
    rw [generate_eq htrain htest hmode hfits hstep, if_pos hend]
    exact ⟨_, rfl⟩
  · rintro ⟨folds, h⟩
    have hchecks : (r.mode = "anchored" ∨ r.mode = "rolling") ∧
        r.trainWindow + r.testWindow ≤ r.totalEnd - r.totalStart ∧ 0 < r.step := by
      unfold generate at h
      split at h
      · cases h
      rename_i hmode
      obtain ⟨least, hleast, h⟩ := bind_eq_ok.mp h
      obtain rfl : r.trainWindow + r.testWindow = least := by
        unfold plusTimedelta at hleast
        split at hleast
        · exact Except.ok.inj hleast
        · cases hleast
      split at h
      · cases h
      rename_i hfits
      split at h
      · rename_i hstep
        exact ⟨by simpa only [not_and_or, not_not] using hmode, not_lt.mp hfits, hstep⟩
      · cases h
    obtain ⟨hmode, hfits, hstep⟩ := hchecks
    rw [generate_eq htrain htest hmode hfits hstep] at h
    split at h
    · rename_i hend
      exact ⟨hmode, hfits, hstep, hend⟩
    · cases h

/-- The folds of a request that is accepted. -/
theorem generate_of_accepted (htrain : 0 < r.trainWindow) (htest : 0 < r.testWindow)
    (h : r.Accepted) :
    r.generate =
      .ok ((progression (r.totalStart + r.trainWindow) r.step r.count).map (r.foldAt htest)) := by
  rw [generate_eq htrain htest h.mode h.fits h.step_pos, if_pos h.in_range]

/-! ## The law -/

/-- The train window of a fold ends from the first end on, and its test
window fits. -/
theorem bounds_of_mem (hstep : 0 < r.step) {t : ℤ}
    (ht : t ∈ progression (r.totalStart + r.trainWindow) r.step r.count) :
    r.totalStart + r.trainWindow ≤ t ∧ t + r.testWindow ≤ r.totalEnd := by
  refine ⟨le_of_mem_progression hstep.le ht, ?_⟩
  obtain ⟨k, hk, rfl⟩ := mem_progression.mp ht
  have := (lt_fitting_iff hstep).mp hk
  rw [nsmul_eq_mul]
  linarith

theorem trainStartOf_le {s t : ℤ} (hst : s ≤ t) : r.trainStartOf s ≤ r.trainStartOf t := by
  unfold trainStartOf
  split
  · exact sub_le_sub_right hst _
  · exact le_refl _

/-- The last fold is the last that fits. -/
theorem lt_of_getLast? (hstep : 0 < r.step) {t : ℤ}
    (ht : t ∈ (progression (r.totalStart + r.trainWindow) r.step r.count).getLast?) :
    r.totalEnd < t + r.step + r.testWindow := by
  cases hn : r.count with
  | zero => simp [hn, progression] at ht
  | succ n =>
    rw [hn, getLast?_progression, Option.mem_some_iff, nsmul_eq_mul] at ht
    have hnot : ¬ n + 1 < r.count := by omega
    rw [count, lt_fitting_iff hstep] at hnot
    push_cast at hnot
    linarith

theorem count_le_one_iff (hstep : 0 < r.step) :
    r.count ≤ 1 ↔ r.totalEnd - r.totalStart < r.trainWindow + r.step + r.testWindow := by
  rw [← not_lt, count, lt_fitting_iff hstep]
  push_cast
  constructor <;> intro hlt <;> linarith

/-- **The folds are lawful but for their test windows**, and these are
disjoint exactly when the step is long enough. -/
theorem lawful_iff (htrain : 0 < r.trainWindow) (htest : 0 < r.testWindow) (h : r.Accepted) :
    LawfulFolds r
        ((progression (r.totalStart + r.trainWindow) r.step r.count).map (r.foldAt htest)) ↔
      r.testWindow ≤ r.step ∨
        r.totalEnd - r.totalStart < r.trainWindow + r.step + r.testWindow := by
  have hstep := h.step_pos
  have hwindows := pairwise_disjoint_Ico_progression_iff (a := r.totalStart + r.trainWindow)
    (w := r.testWindow) (n := r.count) hstep
  rw [← count_le_one_iff hstep, ← hwindows]
  constructor
  · intro hlaw
    have hdisjoint := List.pairwise_map.mp hlaw.disjoint
    exact hdisjoint
  · intro hdisjoint
    refine {
      nonempty := ?nonempty
      inside := List.forall_mem_map.mpr fun t ht => ?inside
      increasing := List.pairwise_map.mpr ((pairwise_lt_progression hstep).imp fun hst => ?increasing)
      disjoint := List.pairwise_map.mpr hdisjoint
      adjacent := List.forall_mem_map.mpr fun t ht => ⟨rfl, rfl⟩
      train := List.forall_mem_map.mpr fun t ht => ?train
      maximal := ?maximal
      out_of_sample := List.forall_mem_map.mpr fun t ht bar hbar => ?out_of_sample }
    case nonempty =>
      intro hnil
      have hpos := count_pos h.fits hstep
      have hlength := congrArg List.length hnil
      simp only [List.length_map, length_progression, List.length_nil] at hlength
      omega
    case inside =>
      obtain ⟨hfrom, hto⟩ := bounds_of_mem hstep ht
      exact ⟨(trainStartOf_bounds htrain hfrom).1, hto⟩
    case increasing =>
      exact ⟨trainStartOf_le hst.le, hst, hst, add_lt_add_left hst _⟩
    case train =>
      refine ⟨fun hmode => ?_, fun hmode => ?_⟩
      · simp [foldAt, trainStartOf, hmode]
      · simp [foldAt, trainStartOf, hmode]
    case maximal =>
      intro f hf
      rw [List.getLast?_map] at hf
      obtain ⟨t, ht, rfl⟩ := Option.mem_map.mp hf
      exact lt_of_getLast? hstep ht
    case out_of_sample => exact absurd hbar.1.2 (not_lt.mpr hbar.2.1)

/-- **Walk-forward folds are lawful exactly when** the step is as long as
the test window, or the range has room for one fold only. -/
theorem generate_lawful_iff (r : FoldRequest) (htrain : 0 < r.trainWindow)
    (htest : 0 < r.testWindow) :
    (r.Accepted ↔ ∃ folds, r.generate = .ok folds) ∧
    ∀ folds, r.generate = .ok folds →
      (LawfulFolds r folds ↔
        r.testWindow ≤ r.step ∨
          r.totalEnd - r.totalStart < r.trainWindow + r.step + r.testWindow) := by
  refine ⟨accepted_iff htrain htest, fun folds hfolds => ?_⟩
  have haccepted := (accepted_iff htrain htest).mpr ⟨folds, hfolds⟩
  rw [generate_of_accepted htrain htest haccepted] at hfolds
  obtain rfl := Except.ok.inj hfolds
  exact lawful_iff htrain htest haccepted

/-! ### Half a year -/

theorem halfYear_start : minInstant ≤ 738886 * microsecondsPerDay := by decide

theorem halfYear_end : 739068 * microsecondsPerDay ≤ maxInstant := by decide

/-- The first 182 days of 2024: two months of training, one of test. -/
def halfYear (step : ℤ) : FoldRequest where
  totalStart := 738886 * microsecondsPerDay
  totalEnd := 739068 * microsecondsPerDay
  trainWindow := 60 * microsecondsPerDay
  testWindow := 30 * microsecondsPerDay
  step
  mode := "rolling"
  totalStart_ge := halfYear_start
  totalEnd_le := halfYear_end

theorem generate_lawful_iff_month :
    ((halfYear (30 * microsecondsPerDay)).Accepted ↔
      ∃ folds, (halfYear (30 * microsecondsPerDay)).generate = .ok folds) ∧
    ∀ folds, (halfYear (30 * microsecondsPerDay)).generate = .ok folds →
      (LawfulFolds (halfYear (30 * microsecondsPerDay)) folds ↔
        (halfYear (30 * microsecondsPerDay)).testWindow ≤ 30 * microsecondsPerDay ∨
          (halfYear (30 * microsecondsPerDay)).totalEnd -
              (halfYear (30 * microsecondsPerDay)).totalStart <
            (halfYear (30 * microsecondsPerDay)).trainWindow + 30 * microsecondsPerDay +
              (halfYear (30 * microsecondsPerDay)).testWindow) :=
  generate_lawful_iff (halfYear (30 * microsecondsPerDay)) (by decide) (by decide)

/-- **Test windows overlap** when the step is ten days. -/
theorem halfYear_overlaps : ∃ folds,
    (halfYear (10 * microsecondsPerDay)).generate = .ok folds ∧
      ¬ LawfulFolds (halfYear (10 * microsecondsPerDay)) folds := by
  have haccepted : (halfYear (10 * microsecondsPerDay)).Accepted :=
    ⟨.inr rfl, by decide, by decide, by decide⟩
  refine ⟨_, generate_of_accepted (by decide) (by decide) haccepted, ?_⟩
  rw [lawful_iff (by decide) (by decide) haccepted]
  decide

end FoldRequest

/-! ## Folds of a manifest -/

/-- A config whose step is as long as its test window gives lawful folds
of every manifest. -/
theorem lawful_of_manifest {m : DatasetManifest} {windowName : List Char}
    {config : Option FoldGenerationConfig} {folds : List FoldSpec}
    (hgap : (config.getD .default).testWindow ≤ (config.getD .default).step)
    (h : generateFoldsFromManifest m windowName config = .ok folds) :
    ∃ entry ∈ m.entries, entry.windowName = windowName ∧
      LawfulFolds ((config.getD .default).request entry) folds := by
  obtain ⟨entry, hentry, h⟩ := bind_eq_ok.mp h
  unfold firstEntryForWindow at hentry
  split at hentry
  · rename_i found hfound
    obtain rfl := Except.ok.inj hentry
    refine ⟨found, List.mem_of_find?_eq_some hfound, ?_, ?_⟩
    · simpa using List.find?_some hfound
    · have htrain := (config.getD .default).trainWindow_pos
      have htest := (config.getD .default).testWindow_pos
      have haccepted := (FoldRequest.accepted_iff htrain htest).mpr ⟨folds, h⟩
      rw [FoldRequest.generate_of_accepted htrain htest haccepted] at h
      obtain rfl := Except.ok.inj h
      exact (FoldRequest.lawful_iff htrain htest haccepted).mpr (.inl hgap)
  · cases hentry

end TdSandboxed
