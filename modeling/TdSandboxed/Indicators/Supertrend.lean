/-
TdSandboxed.Indicators.Supertrend — the Supertrend line
(`indicators/supertrend.py`).

The average true range is Nautilus code: a bar comes with its value after
the bar, once there is one. Floats are exact rationals.

`line_lt_close_iff` and `close_lt_line_iff` say when the line of a trend
is strictly on the far side of the close. A trend that goes on keeps its
line there but for a close exactly on it; a bar that turns the trend may
find the bands crossed, with the new line beyond the close.
-/
import Mathlib.Algebra.Order.Field.Rat
import Mathlib.Tactic.Linarith

namespace TdSandboxed

/-- A bar, with the average true range after it. -/
structure TrailBar where
  high : ℚ
  low : ℚ
  close : ℚ
  /-- None before the ATR is initialised. -/
  atr : Option ℚ
  low_le : low ≤ close
  le_high : close ≤ high
  atr_nonneg : ∀ a ∈ atr, 0 ≤ a

structure Supertrend where
  multiplier : ℚ
  prevClose : Option ℚ := none
  prevFinalUpper : Option ℚ := none
  prevFinalLower : Option ℚ := none
  value : Option ℚ := none
  trend : ℤ := 0
  initialized : Bool := false
  deriving DecidableEq

namespace Supertrend

variable {s : Supertrend} {bar : TrailBar} {atr : ℚ}

def basicUpper (s : Supertrend) (bar : TrailBar) (atr : ℚ) : ℚ :=
  (bar.high + bar.low) / 2 + s.multiplier * atr

def basicLower (s : Supertrend) (bar : TrailBar) (atr : ℚ) : ℚ :=
  (bar.high + bar.low) / 2 - s.multiplier * atr

/-- The upper band after the bar. -/
def finalUpper (s : Supertrend) (bar : TrailBar) (atr : ℚ) : ℚ :=
  match s.prevFinalUpper with
  | none => s.basicUpper bar atr
  | some prev =>
    if s.basicUpper bar atr < prev ∨ ∃ c ∈ s.prevClose, c > prev then s.basicUpper bar atr
    else prev

/-- The lower band after the bar. -/
def finalLower (s : Supertrend) (bar : TrailBar) (atr : ℚ) : ℚ :=
  match s.prevFinalLower with
  | none => s.basicLower bar atr
  | some prev =>
    if s.basicLower bar atr > prev ∨ ∃ c ∈ s.prevClose, c < prev then s.basicLower bar atr
    else prev

/-- The trend after the bar, and the line: the lower band of an uptrend,
the upper one of a downtrend. -/
def line (s : Supertrend) (bar : TrailBar) (atr : ℚ) : ℤ × ℚ :=
  let upper := s.finalUpper bar atr
  let lower := s.finalLower bar atr
  match s.value with
  -- the first initialised bar defaults to an uptrend
  | none => if bar.close < lower then (-1, upper) else (1, lower)
  | some _ =>
    if s.trend = 1 then if bar.close < lower then (-1, upper) else (s.trend, lower)
    else if bar.close > upper then (1, lower) else (s.trend, upper)

def handleBar (s : Supertrend) (bar : TrailBar) : Supertrend :=
  match bar.atr with
  | none => { s with prevClose := some bar.close }
  | some atr =>
    let (trend, value) := s.line bar atr
    { s with
      trend
      value := some value
      prevFinalUpper := some (s.finalUpper bar atr)
      prevFinalLower := some (s.finalLower bar atr)
      prevClose := some bar.close
      initialized := true }

/-! ## The line and the close -/

/-- What every bar keeps. The lines and the trend come with the first
initialised bar. -/
structure Sound (s : Supertrend) : Prop where
  multiplier : 0 < s.multiplier
  initialized : s.initialized = s.value.isSome
  fresh : s.value = none → s.trend = 0 ∧ s.prevFinalUpper = none ∧ s.prevFinalLower = none
  trend : s.value.isSome → s.trend = 1 ∨ s.trend = -1

theorem sound_init {multiplier : ℚ} (h : 0 < multiplier) : Sound { multiplier } where
  multiplier := h
  initialized := rfl
  fresh := fun _ => ⟨rfl, rfl, rfl⟩
  trend := fun h => (by cases h)

theorem line_trend (h : s.Sound) (bar : TrailBar) (atr : ℚ) :
    (s.line bar atr).1 = 1 ∨ (s.line bar atr).1 = -1 := by
  unfold line
  cases hv : s.value with
  | none =>
    dsimp only
    split
    · exact .inr rfl
    · exact .inl rfl
  | some v =>
    have htrend := h.trend (by rw [hv]; rfl)
    dsimp only
    split
    · split
      · exact .inr rfl
      · exact htrend
    · split
      · exact .inl rfl
      · exact htrend

theorem Sound.handleBar (h : s.Sound) (bar : TrailBar) : (s.handleBar bar).Sound := by
  unfold Supertrend.handleBar
  cases bar.atr with
  | none => exact ⟨h.multiplier, h.initialized, h.fresh, h.trend⟩
  | some atr =>
    exact ⟨h.multiplier, rfl, fun hv => (by cases hv), fun _ => line_trend h bar atr⟩

theorem basicLower_le_basicUpper (h : s.Sound) (hatr : 0 ≤ atr) :
    s.basicLower bar atr ≤ s.basicUpper bar atr := by
  have hwidth : 0 ≤ s.multiplier * atr := mul_nonneg h.multiplier.le hatr
  unfold basicLower basicUpper
  linarith

/-- The close lies exactly on the lower band, in an uptrend that goes on or
begins with the first initialised bar. -/
def OnLower (s : Supertrend) (bar : TrailBar) (atr : ℚ) : Prop :=
  s.trend ≠ -1 ∧ bar.close = s.finalLower bar atr

/-- The close lies exactly on the upper band, in a downtrend that goes on. -/
def OnUpper (s : Supertrend) (bar : TrailBar) (atr : ℚ) : Prop :=
  s.trend = -1 ∧ bar.close = s.finalUpper bar atr

/-- The bar turns a downtrend with a close above the upper band and not
above the lower one. -/
def TurnsUpBelowLower (s : Supertrend) (bar : TrailBar) (atr : ℚ) : Prop :=
  s.trend = -1 ∧ s.finalUpper bar atr < bar.close ∧ bar.close ≤ s.finalLower bar atr

/-- The bar turns an uptrend with a close below the lower band and not
below the upper one. -/
def TurnsDownAboveUpper (s : Supertrend) (bar : TrailBar) (atr : ℚ) : Prop :=
  s.trend = 1 ∧ bar.close < s.finalLower bar atr ∧ s.finalUpper bar atr ≤ bar.close

instance : Decidable (s.OnLower bar atr) := inferInstanceAs (Decidable (_ ∧ _))

instance : Decidable (s.OnUpper bar atr) := inferInstanceAs (Decidable (_ ∧ _))

instance : Decidable (s.TurnsUpBelowLower bar atr) := inferInstanceAs (Decidable (_ ∧ _))

instance : Decidable (s.TurnsDownAboveUpper bar atr) := inferInstanceAs (Decidable (_ ∧ _))

/-- **The line of an uptrend** is below the close, but for a close on it
and for a turn between crossed bands. -/
theorem line_lt_close_iff (h : s.Sound) (hup : (s.line bar atr).1 = 1) :
    (s.line bar atr).2 < bar.close ↔ ¬ (s.OnLower bar atr ∨ s.TurnsUpBelowLower bar atr) := by
  unfold line at hup ⊢
  unfold OnLower TurnsUpBelowLower
  cases hv : s.value with
  | none =>
    have htrend := (h.fresh hv).1
    simp only [hv, htrend] at hup ⊢
    split at hup
    · cases hup
    · rename_i hge
      rw [if_neg hge]
      simp [(not_lt.mp hge).lt_iff_ne, eq_comm]
  | some v =>
    simp only [hv] at hup ⊢
    cases h.trend (by rw [hv]; rfl) with
    | inl htrend =>
      simp only [htrend, if_true] at hup ⊢
      split at hup
      · cases hup
      · rename_i hge
        rw [if_neg hge]
        simp [(not_lt.mp hge).lt_iff_ne, eq_comm]
    | inr htrend =>
      simp only [htrend] at hup ⊢
      rw [if_neg (by decide)] at hup ⊢
      split at hup
      · rename_i hgt
        rw [if_pos hgt]
        simp [gt_iff_lt.mp hgt]
      · cases hup

/-- The line of a downtrend is above the close, but for the mirror images. -/
theorem close_lt_line_iff (h : s.Sound) (hatr : 0 ≤ atr) (hdown : (s.line bar atr).1 = -1) :
    bar.close < (s.line bar atr).2 ↔
      ¬ (s.OnUpper bar atr ∨ s.TurnsDownAboveUpper bar atr) := by
  unfold line at hdown ⊢
  unfold OnUpper TurnsDownAboveUpper
  cases hv : s.value with
  | none =>
    obtain ⟨htrend, hupper, hlower⟩ := h.fresh hv
    simp only [hv, htrend] at hdown ⊢
    split at hdown
    · rename_i hlt
      rw [if_pos hlt]
      -- the first bands are the basic ones
      have hle := @basicLower_le_basicUpper s bar atr h hatr
      simp only [finalUpper, hupper, finalLower, hlower] at hlt ⊢
      simp [lt_of_lt_of_le hlt hle]
    · cases hdown
  | some v =>
    simp only [hv] at hdown ⊢
    cases h.trend (by rw [hv]; rfl) with
    | inl htrend =>
      simp only [htrend, if_true] at hdown ⊢
      split at hdown
      · rename_i hlt
        rw [if_pos hlt]
        simp [hlt]
      · cases hdown
    | inr htrend =>
      simp only [htrend] at hdown ⊢
      rw [if_neg (by decide)] at hdown ⊢
      split at hdown
      · cases hdown
      · rename_i hle
        rw [if_neg hle]
        simp [(not_lt.mp hle).lt_iff_ne]

end Supertrend

end TdSandboxed
