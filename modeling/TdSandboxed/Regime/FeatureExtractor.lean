/-
TdSandboxed.Regime.FeatureExtractor — features of the market regime
(`regime/features.py`).

The extractor feeds every bar to four indicators and answers with their
values once enough bars were seen and every indicator has one. The
assertions that it makes of the indicators are exceptions here.
-/
import Mathlib
import TdSandboxed.Indicators.RegimeIndicators
import TdSandboxed.Regime.HysteresisFilter

namespace TdSandboxed

structure FeatureExtractor (F : Type*) [Zero F] [LT F] where
  barType : String
  adx : ADX F
  bbWidth : BollingerBandWidth F
  realizedVol : RealizedVolatility F
  emaSlope : EMASlope F
  warmupBars : ℕ
  barType_ne : barType ≠ ""
  warmupBars_pos : 0 < warmupBars
  barsSeen : ℕ := 0

namespace FeatureExtractor

variable {F : Type*} [Field F] [LinearOrder F]

/-- `assert value is not None` -/
def asserted {α : Type*} : Option α → Except IndicatorError α
  | some a => .ok a
  | none => .error .assertionError

/-- The second half of `update`: the features, if there are any yet. -/
def features (s : FeatureExtractor F) : Except IndicatorError (Option (RegimeFeatures F)) :=
  if s.barsSeen < s.warmupBars then .ok none
  else if ¬ (s.adx.initialized ∧ s.bbWidth.initialized ∧ s.realizedVol.initialized ∧
      s.emaSlope.initialized) then .ok none
  else do
    let adx ← asserted s.adx.adx
    let plusDi ← asserted s.adx.plusDi
    let minusDi ← asserted s.adx.minusDi
    let bbWidthPct ← asserted s.bbWidth.percentile
    let realizedVol ← asserted s.realizedVol.value
    let emaSlope ← asserted s.emaSlope.value
    return some { adx, plusDi, minusDi, bbWidthPct, realizedVol, emaSlope, isWarmedUp := true }

def update (sqrt log : F → F) (s : FeatureExtractor F) (bar : PriceBar F) :
    Except IndicatorError (FeatureExtractor F × Option (RegimeFeatures F)) := do
  let s := { s with barsSeen := s.barsSeen + 1 }
  let adx ← s.adx.handleBar bar
  let bbWidth ← s.bbWidth.handleBar sqrt bar
  let realizedVol ← s.realizedVol.handleBar sqrt log bar
  let emaSlope ← s.emaSlope.handleBar bar
  let s := { s with adx, bbWidth, realizedVol, emaSlope }
  let features ← s.features
  return (s, features)

/-- What the extractor keeps of the bars. -/
def feed (sqrt log : F → F) (s : FeatureExtractor F) (bars : List (PriceBar F)) :
    Except IndicatorError (FeatureExtractor F) :=
  bars.foldlM (fun s bar => Prod.fst <$> s.update sqrt log bar) s

end FeatureExtractor

/-- What an extractor and its indicators are built with. -/
structure RegimeSetup (F : Type*) [Zero F] [LT F] where
  barType : String
  adxPeriod : ℕ
  bbPeriod : ℕ
  bbStddev : F
  bbBaselineWindow : ℕ
  realizedVolWindow : ℕ
  annualisationFactor : F
  emaSlopePeriod : ℕ
  emaSlopeLookback : ℕ
  warmupBars : ℕ
  barType_ne : barType ≠ ""
  adxPeriod_pos : 0 < adxPeriod
  bbPeriod_pos : 0 < bbPeriod
  bbStddev_pos : 0 < bbStddev
  bbBaselineWindow_pos : 0 < bbBaselineWindow
  two_le_realizedVolWindow : 2 ≤ realizedVolWindow
  annualisationFactor_pos : 0 < annualisationFactor
  emaSlopePeriod_pos : 0 < emaSlopePeriod
  emaSlopeLookback_pos : 0 < emaSlopeLookback
  warmupBars_pos : 0 < warmupBars

/-- `build_extractor`, which leaves the annualisation factor at one. -/
def RegimeSetup.buildExtractor {F : Type*} [Zero F] [LT F] (p : RegimeSetup F) :
    FeatureExtractor F where
  barType := p.barType
  adx := { period := p.adxPeriod, period_pos := p.adxPeriod_pos }
  bbWidth :=
    { period := p.bbPeriod, numStd := p.bbStddev, baselineWindow := p.bbBaselineWindow
      period_pos := p.bbPeriod_pos, numStd_pos := p.bbStddev_pos
      baselineWindow_pos := p.bbBaselineWindow_pos }
  realizedVol :=
    { window := p.realizedVolWindow, annualisationFactor := p.annualisationFactor
      two_le_window := p.two_le_realizedVolWindow
      annualisationFactor_pos := p.annualisationFactor_pos }
  emaSlope :=
    { period := p.emaSlopePeriod, lookback := p.emaSlopeLookback
      period_pos := p.emaSlopePeriod_pos, lookback_pos := p.emaSlopeLookback_pos }
  warmupBars := p.warmupBars
  barType_ne := p.barType_ne
  warmupBars_pos := p.warmupBars_pos

end TdSandboxed
