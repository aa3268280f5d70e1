/-
TdSandboxed.Backtesting.WalkForward — the folds of a walk-forward analysis
(`WalkForwardFolds` of `backtesting/walk_forward.py`,
`FoldGenerationConfig` and `generate_folds_from_manifest` of
`backtesting/dataset/walk_forward_harness.py`).

A datetime is its microsecond, all on one clock, and a timedelta a number
of microseconds. Both end somewhere: what would go beyond raises.
-/
import TdSandboxed.Backtesting.DatasetManifest
import TdSandboxed.Lib.Progression
import TdSandboxed.Lib.PyRepr
import Mathlib.Tactic.IntervalCases

namespace TdSandboxed

open Lib Dataset

inductive WalkForwardError
  | unknownMode (mode : String)
  | rangeTooShort
  | stepNotPositive
  | noFolds
  | trainEndAfterTestStart (trainEnd testStart : ℤ)
  | testEndNotAfterTestStart (testEnd testStart : ℤ)
  | notPositive (field : String) (value : ℤ)
  | invalidMode (mode : String)
  | noEntries (windowName : List Char) (available : List (List Char))
  | dateOverflow
  | timedeltaOverflow
  deriving DecidableEq

/-- The message; `str` writes a datetime or a timedelta, `repr` the list of
names. -/
def WalkForwardError.message (str : ℤ → String) (repr : List (List Char) → String) :
    WalkForwardError → String
  | unknownMode mode => s!"Unknown mode: {pyRepr mode}"
  | rangeTooShort => "total range is shorter than train_window + test_window"
  | stepNotPositive => "step must be positive"
  | noFolds => "No folds generated — widen the range or narrow the windows"
  | trainEndAfterTestStart trainEnd testStart =>
    s!"train_end ({str trainEnd}) must be <= test_start ({str testStart})"
  | testEndNotAfterTestStart testEnd testStart =>
    s!"test_end ({str testEnd}) must be > test_start ({str testStart})"
  | notPositive field value => s!"{field} must be positive, got {str value}"
  | invalidMode mode => s!"mode must be one of ['anchored', 'rolling'], got {pyRepr mode}"
  | noEntries windowName available =>
    s!"manifest has no entries for window={pyRepr (String.ofList windowName)}. " ++
      s!"Available: {repr available}"
  | dateOverflow => "date value out of range"
  | timedeltaOverflow => "must have magnitude <= 999999999"

/-! ## Datetimes -/

def microsecondsPerDay : ℤ := 86400000000

theorem microsecondsPerDay_pos : 0 < microsecondsPerDay := Int.natCast_pos.mpr (Nat.succ_pos _)

/-- The first microsecond of the year 1. -/
def minInstant : ℤ := microsecondsPerDay

/-- The last one of the year 9999. -/
def maxInstant : ℤ := 3652060 * microsecondsPerDay - 1

/-- The days of a year up to a date in it. -/
theorem sum_daysInMonth_add_le (d : UtcDatetime) :
    ((List.range' 1 (d.month - 1)).map (ForexFactory.daysInMonth d.year)).sum + d.day ≤
      if ForexFactory.isLeap d.year then 366 else 365 := by
  obtain ⟨hfirst, hlast⟩ := d.month_bounds
  have hday := d.day_bounds.2
  generalize d.month = month at *
  interval_cases month <;> cases hleap : ForexFactory.isLeap d.year <;>
    simp [List.range'_succ, ForexFactory.daysInMonth, hleap] at hday ⊢ <;> omega

theorem instant_bounds (d : UtcDatetime) :
    minInstant ≤ (d.instant : ℤ) ∧ (d.instant : ℤ) ≤ maxInstant := by
  have hdays := sum_daysInMonth_add_le d
  obtain ⟨hyear, hyear'⟩ := d.year_bounds
  have hday := d.day_bounds.1
  have hhour := d.hour_lt
  have hminute := d.minute_lt
  have hsecond := d.second_lt
  have hmicro := d.microsecond_lt
  have hordinal : 1 ≤ ForexFactory.toordinal d.year d.month d.day ∧
      ForexFactory.toordinal d.year d.month d.day ≤ 3652059 := by
    simp only [ForexFactory.toordinal]
    generalize ((List.range' 1 (d.month - 1)).map (ForexFactory.daysInMonth d.year)).sum = s at *
    refine ⟨by omega, ?_⟩
    by_cases hlast : d.year = 9999
    · simp only [hlast] at hdays ⊢
      have : s + d.day ≤ 365 := hdays
      omega
    · have : s + d.day ≤ 366 := hdays.trans (by split <;> omega)
      omega
  simp only [minInstant, maxInstant, microsecondsPerDay, UtcDatetime.instant]
  generalize ForexFactory.toordinal d.year d.month d.day = n at *
  push_cast
  omega

/-- A datetime and a timedelta. -/
def plus (t d : ℤ) : Except WalkForwardError ℤ :=
  if minInstant ≤ t + d ∧ t + d ≤ maxInstant then .ok (t + d) else .error .dateOverflow

/-- Two timedeltas. -/
def plusTimedelta (d e : ℤ) : Except WalkForwardError ℤ :=
  if -999999999 * microsecondsPerDay ≤ d + e ∧ d + e < 1000000000 * microsecondsPerDay then
    .ok (d + e)
  else .error .timedeltaOverflow

/-! ## Folds -/

/-- The checks of `__post_init__` are its fields. -/
structure FoldSpec where
  trainStart : ℤ
  trainEnd : ℤ
  testStart : ℤ
  testEnd : ℤ
  trainEnd_le : trainEnd ≤ testStart
  testStart_lt : testStart < testEnd

def FoldSpec.build (trainStart trainEnd testStart testEnd : ℤ) :
    Except WalkForwardError FoldSpec :=
  if htrain : trainEnd ≤ testStart then
    if htest : testStart < testEnd then
      .ok {
        trainStart
        trainEnd
        testStart
        testEnd
        trainEnd_le := htrain
        testStart_lt := htest }
    else .error (.testEndNotAfterTestStart testEnd testStart)
  else .error (.trainEndAfterTestStart trainEnd testStart)

/-- The arguments of `generate`. -/
structure FoldRequest where
  totalStart : ℤ
  totalEnd : ℤ
  trainWindow : ℤ
  testWindow : ℤ
  step : ℤ
  mode : String
  totalStart_ge : minInstant ≤ totalStart
  totalEnd_le : totalEnd ≤ maxInstant

namespace FoldRequest

/-- The loop. The end of the train window grows with the step, so it
comes past the total end. -/
def foldsFrom (r : FoldRequest) (hstep : 0 < r.step) (trainStart trainEnd : ℤ) :
    Except WalkForwardError (List FoldSpec) :=
  match plus trainEnd r.testWindow with
  | .error e => .error e
  | .ok testEnd =>
    if r.totalEnd < testEnd then .ok []
    else
      match FoldSpec.build trainStart trainEnd trainEnd testEnd with
      | .error e => .error e
      | .ok fold =>
        match _hnext : plus trainEnd r.step with
        | .error e => .error e
        | .ok next =>
          match if r.mode = "rolling" then plus trainStart r.step else .ok trainStart with
          | .error e => .error e
          | .ok start => (r.foldsFrom hstep start next).map (fold :: ·)
termination_by (maxInstant - trainEnd).toNat
decreasing_by
  unfold plus at _hnext
  split at _hnext
  · obtain rfl := Except.ok.inj _hnext
    omega
  · cases _hnext

def generate (r : FoldRequest) : Except WalkForwardError (List FoldSpec) :=
  if r.mode ≠ "anchored" ∧ r.mode ≠ "rolling" then .error (.unknownMode r.mode)
  else do
    let least ← plusTimedelta r.trainWindow r.testWindow
    if r.totalEnd - r.totalStart < least then .error .rangeTooShort
    else if hstep : 0 < r.step then do
      let trainEnd ← plus r.totalStart r.trainWindow
      let folds ← r.foldsFrom hstep r.totalStart trainEnd
      if folds.isEmpty then .error .noFolds else .ok folds
    else .error .stepNotPositive

end FoldRequest

/-! ## Folds of a manifest -/

/-- The checks of `__post_init__` are its fields. -/
structure FoldGenerationConfig where
  trainWindow : ℤ
  testWindow : ℤ
  step : ℤ
  mode : String
  trainWindow_pos : 0 < trainWindow
  testWindow_pos : 0 < testWindow
  step_pos : 0 < step
  mode_valid : mode = "anchored" ∨ mode = "rolling"

namespace FoldGenerationConfig

def build (trainWindow testWindow step : ℤ) (mode : String) :
    Except WalkForwardError FoldGenerationConfig :=
  if htrain : 0 < trainWindow then
    if htest : 0 < testWindow then
      if hstep : 0 < step then
        if hmode : mode = "anchored" ∨ mode = "rolling" then
          .ok {
            trainWindow
            testWindow
            step
            mode
            trainWindow_pos := htrain
            testWindow_pos := htest
            step_pos := hstep
            mode_valid := hmode }
        else .error (.invalidMode mode)
      else .error (.notPositive "step" step)
    else .error (.notPositive "test_window" testWindow)
  else .error (.notPositive "train_window" trainWindow)

/-- Six months, one month, one month, rolling. -/
def default : FoldGenerationConfig where
  trainWindow := 6 * 30 * microsecondsPerDay
  testWindow := 30 * microsecondsPerDay
  step := 30 * microsecondsPerDay
  mode := "rolling"
  trainWindow_pos := mul_pos (Int.natCast_pos.mpr (Nat.succ_pos 179)) microsecondsPerDay_pos
  testWindow_pos := mul_pos (Int.natCast_pos.mpr (Nat.succ_pos 29)) microsecondsPerDay_pos
  step_pos := mul_pos (Int.natCast_pos.mpr (Nat.succ_pos 29)) microsecondsPerDay_pos
  mode_valid := .inr rfl

end FoldGenerationConfig

/-- `_first_entry_for_window` -/
def firstEntryForWindow (m : DatasetManifest) (windowName : List Char) :
    Except WalkForwardError DatasetEntry :=
  match m.entries.find? fun e => e.windowName = windowName with
  | some entry => .ok entry
  | none => .error (.noEntries windowName ((m.entries.map (·.windowName)).dedup.mergeSort (· ≤ ·)))

/-- The arguments that a window of a manifest and a config give. -/
def FoldGenerationConfig.request (c : FoldGenerationConfig) (entry : DatasetEntry) : FoldRequest where
  totalStart := entry.start.instant
  totalEnd := entry.stop.instant
  trainWindow := c.trainWindow
  testWindow := c.testWindow
  step := c.step
  mode := c.mode
  totalStart_ge := (instant_bounds entry.start).1
  totalEnd_le := (instant_bounds entry.stop).2

def generateFoldsFromManifest (m : DatasetManifest) (windowName : List Char)
    (config : Option FoldGenerationConfig) : Except WalkForwardError (List FoldSpec) := do
  let cfg := config.getD .default
  let entry ← firstEntryForWindow m windowName
  (cfg.request entry).generate

end TdSandboxed
