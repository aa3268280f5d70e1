/-
TdSandboxed.Regime.HysteresisFilter — the confirmation filter of the market
regime (`regime/hysteresis.py`, with `regime/decision.py`,
`regime/features.py` and `RegimeThresholds` of `config/firm_profile.py`).

The filter follows the label of a bar only after as many bars of that label
as it was configured with. Its decision for a bar carries a confidence, and
a decision checks its own fields when it is built.

Floats are the elements of any linear order with operations of which
nothing is assumed, so rounding is covered, and so are infinite features.
There is no NaN: features refuse it when they are built, and thresholds that
are NaN or infinite, which the checks of `RegimeThresholds` may let pass,
are left out.
-/
import Mathlib.Algebra.Order.ZeroLEOne
import Mathlib.Order.Lattice
import TdSandboxed.Rules.BaseRule

namespace TdSandboxed

inductive RegimeState
  | trendingUp
  | trendingDown
  | ranging
  | highVolatility
  | unknown
  deriving DecidableEq, Repr

structure RegimeFeatures (F : Type*) where
  adx : F
  plusDi : F
  minusDi : F
  bbWidthPct : F
  realizedVol : F
  emaSlope : F
  isWarmedUp : Bool

structure RegimeThresholds (F : Type*) [LinearOrder F] [Zero F] [One F] where
  adxTrendMin : F
  adxStrongTrend : F
  bbWidthLowPct : F
  bbWidthHighPct : F
  realizedVolHigh : F
  emaSlopeTrendThreshold : F
  adxTrendMin_pos : 0 < adxTrendMin
  adxStrongTrend_pos : 0 < adxStrongTrend
  adxTrendMin_le : adxTrendMin ≤ adxStrongTrend
  bbWidthLowPct_unit : 0 ≤ bbWidthLowPct ∧ bbWidthLowPct ≤ 1
  bbWidthHighPct_unit : 0 ≤ bbWidthHighPct ∧ bbWidthHighPct ≤ 1
  bbWidthLowPct_lt : bbWidthLowPct < bbWidthHighPct
  realizedVolHigh_pos : 0 < realizedVolHigh
  emaSlopeTrendThreshold_pos : 0 < emaSlopeTrendThreshold

structure RegimeDecision (F : Type*) where
  /-- With a time zone. -/
  timestamp : ℚ
  barType : String
  currentState : RegimeState
  rawState : RegimeState
  pendingState : Option RegimeState
  barsInPending : ℤ
  features : RegimeFeatures F
  confidence : F

/-- What the filter is built with. -/
structure HysteresisConfig (F : Type*) [LinearOrder F] [Zero F] [One F] where
  barType : String
  confirmationBars : ℕ
  thresholds : RegimeThresholds F
  barType_ne : barType ≠ ""
  confirmationBars_pos : 0 < confirmationBars

structure HysteresisFilter (F : Type*) [LinearOrder F] [Zero F] [One F] where
  config : HysteresisConfig F
  current : RegimeState := .unknown
  pending : Option RegimeState := none
  barsInPending : ℤ := 0

section

variable {F : Type*} [LinearOrder F] [Zero F] [One F]

/-- `RegimeDecision.__post_init__` -/
def RegimeDecision.check (d : RegimeDecision F) : Except PyException (RegimeDecision F) :=
  if d.barType = "" then
    .error (.valueError "RegimeDecision.bar_type must be non-empty")
  else if d.barsInPending < 0 then
    .error (.valueError s!"RegimeDecision.bars_in_pending must be >= 0, got {d.barsInPending}")
  else if d.pendingState = none ∧ d.barsInPending ≠ 0 then
    .error (.valueError "RegimeDecision.bars_in_pending must be 0 when pending_state is None")
  else if d.pendingState = some d.currentState then
    .error (.valueError "RegimeDecision.pending_state must differ from current_state")
  else if d.pendingState ≠ none ∧ d.barsInPending ≤ 0 then
    .error (.valueError "RegimeDecision.bars_in_pending must be > 0 when pending_state is set")
  else if ¬(0 ≤ d.confidence ∧ d.confidence ≤ 1) then
    .error (.valueError "RegimeDecision.confidence must be in [0, 1]")
  else .ok d

/-- `_clamp_unit` -/
def clampUnit (x : F) : F := if x < 0 then 0 else if 1 < x then 1 else x

namespace HysteresisFilter

/-- The first half of `apply`: the state machine. -/
def advance (f : HysteresisFilter F) (raw : RegimeState) : HysteresisFilter F :=
  if raw = f.current then { f with pending := none, barsInPending := 0 }
  else
    let bars := if f.pending = some raw then f.barsInPending + 1 else 1
    if f.config.confirmationBars ≤ bars then
      { f with current := raw, pending := none, barsInPending := 0 }
    else { f with pending := some raw, barsInPending := bars }

variable [Sub F] [Mul F] [Div F] [IntCast F]

/-- `_stability_factor` -/
def stabilityFactor (f : HysteresisFilter F) : F :=
  if f.pending = none then 1
  else clampUnit (1 - (f.barsInPending : F) / ((f.config.confirmationBars : ℤ) : F))

/-- `_state_margin` -/
def stateMargin (t : RegimeThresholds F) (state : RegimeState) (features : RegimeFeatures F) : F :=
  match state with
  | .trendingUp | .trendingDown =>
    let span := t.adxStrongTrend - t.adxTrendMin
    if span ≤ 0 then 1 else clampUnit ((features.adx - t.adxTrendMin) / span)
  | .highVolatility =>
    let bbSpan := 1 - t.bbWidthHighPct
    let bbMargin := if 0 < bbSpan then (features.bbWidthPct - t.bbWidthHighPct) / bbSpan else 1
    let rvMargin :=
      if 0 < t.realizedVolHigh then
        (features.realizedVol - t.realizedVolHigh) / t.realizedVolHigh
      else 1
    clampUnit (max bbMargin rvMargin)
  | .ranging =>
    if t.bbWidthLowPct ≤ 0 then 1
    else clampUnit (1 - features.bbWidthPct / t.bbWidthLowPct)
  | .unknown => 0

/-- `_compute_confidence` -/
def computeConfidence (f : HysteresisFilter F) (features : RegimeFeatures F) : F :=
  if f.current = .unknown then 0
  else clampUnit (f.stabilityFactor * stateMargin f.config.thresholds f.current features)

/-- `apply`: the state afterwards, and the decision of the bar. -/
def apply (f : HysteresisFilter F) (raw : RegimeState) (ts : ℚ) (features : RegimeFeatures F) :
    HysteresisFilter F × Except PyException (RegimeDecision F) :=
  let f := f.advance raw
  (f, RegimeDecision.check
    { timestamp := ts, barType := f.config.barType, currentState := f.current, rawState := raw,
      pendingState := f.pending, barsInPending := f.barsInPending, features,
      confidence := f.computeConfidence features })

end HysteresisFilter

end

end TdSandboxed
