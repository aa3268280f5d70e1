/-
TdSandboxed.Indicators.RegimeIndicators — the four indicators of the regime
classifier (`indicators/adx.py`, `indicators/bb_width.py`,
`indicators/realized_vol.py`, `indicators/ema_slope.py`).

Each takes in one bar at a time and keeps what it needs of the earlier
ones: seeds, smoothed values, buffers for the last few values. Numbers are
exact, from any ordered field, with its square root and its logarithm as
parameters; a division by zero is an exception.

What a parameter is checked for when an indicator is built is a field of
its structure.
-/
import Mathlib
import TdSandboxed.Lib.Streaming

namespace TdSandboxed

/-- A bar of `nautilus_trader`, as far as an indicator reads it. -/
structure PriceBar (F : Type*) where
  high : F
  low : F
  close : F

/-- What a bar may raise. -/
inductive IndicatorError
  | zeroDivisionError
  | assertionError
  deriving DecidableEq, Repr

variable {F : Type*} [Field F] [LinearOrder F]

/-- The `/` of Python. -/
def divide (a b : F) : Except IndicatorError F :=
  if b = 0 then .error .zeroDivisionError else .ok (a / b)

/-! ## Average directional index -/

/-- The three raw values of a bar, and what becomes of them by smoothing. -/
@[ext]
structure Directional (F : Type*) where
  pdm : F
  mdm : F
  tr : F

structure DirectionalIndex (F : Type*) where
  plusDi : F
  minusDi : F
  dx : F

/-- Directional movement and true range of a bar after another. -/
def directional (prev bar : PriceBar F) : Directional F :=
  let upMove := bar.high - prev.high
  let downMove := prev.low - bar.low
  { pdm := if upMove > downMove ∧ upMove > 0 then upMove else 0
    mdm := if downMove > upMove ∧ downMove > 0 then downMove else 0
    tr := max (max (bar.high - bar.low) |bar.high - prev.close|) |bar.low - prev.close| }

/-- The three `_prev_*` fields are set together, and so are the three
smoothed values. -/
structure ADX (F : Type*) where
  period : ℕ
  period_pos : 0 < period
  prev : Option (PriceBar F) := none
  pdmSeed : List F := []
  mdmSeed : List F := []
  trSeed : List F := []
  smoothed : Option (Directional F) := none
  dxSeed : List F := []
  adx : Option F := none
  plusDi : Option F := none
  minusDi : Option F := none
  initialized : Bool := false

namespace ADX

/-- The first half of `_update_di_and_dx`. -/
def directionalIndex (m : Directional F) : Except IndicatorError (DirectionalIndex F) :=
  if m.tr = 0 then .ok { plusDi := 0, minusDi := 0, dx := 0 }
  else do
    let plusDi ← divide (100 * m.pdm) m.tr
    let minusDi ← divide (100 * m.mdm) m.tr
    let diSum := plusDi + minusDi
    let dx ← if diSum > 0 then divide (100 * |plusDi - minusDi|) diSum else .ok 0
    return { plusDi, minusDi, dx }

/-- `_update_di_and_dx`, with the smoothed values just set. -/
def updateDiAndDx (s : ADX F) (m : Directional F) : Except IndicatorError (ADX F) := do
  let di ← directionalIndex m
  let s := { s with smoothed := some m, plusDi := some di.plusDi, minusDi := some di.minusDi }
  match s.adx with
  | none =>
    let dxSeed := s.dxSeed ++ [di.dx]
    if dxSeed.length = s.period then
      let adx ← divide dxSeed.sum s.period
      return { s with dxSeed, adx := some adx, initialized := true }
    else return { s with dxSeed }
  | some adx =>
    let adx ← divide (adx * ((s.period : F) - 1) + di.dx) s.period
    return { s with adx := some adx }

/-- One raw value folded into a smoothed one. -/
def fold (s : ADX F) (m raw : F) : Except IndicatorError F := do
  let share ← divide m s.period
  return m - share + raw

/-- Stage 1: raw values up to the first seed. -/
def seed (s : ADX F) (raw : Directional F) : Except IndicatorError (ADX F) :=
  let s := { s with
    pdmSeed := s.pdmSeed ++ [raw.pdm]
    mdmSeed := s.mdmSeed ++ [raw.mdm]
    trSeed := s.trSeed ++ [raw.tr] }
  if s.trSeed.length = s.period then
    s.updateDiAndDx { pdm := s.pdmSeed.sum, mdm := s.mdmSeed.sum, tr := s.trSeed.sum }
  else .ok s

/-- Wilder's recursive smoothing. -/
def smooth (s : ADX F) (m raw : Directional F) : Except IndicatorError (ADX F) := do
  let pdm ← s.fold m.pdm raw.pdm
  let mdm ← s.fold m.mdm raw.mdm
  let tr ← s.fold m.tr raw.tr
  s.updateDiAndDx { pdm, mdm, tr }

def handleBar (s : ADX F) (bar : PriceBar F) : Except IndicatorError (ADX F) :=
  match s.prev with
  | none => .ok { s with prev := some bar }
  | some prev => do
    let raw := directional prev bar
    let s ← match s.smoothed with
      | none => s.seed raw
      | some m => s.smooth m raw
    return { s with prev := some bar }

end ADX

/-! ## Bollinger band width -/

/-- `closes` and `baseline` are deques of bounded length. -/
structure BollingerBandWidth (F : Type*) [Zero F] [LT F] where
  period : ℕ
  numStd : F
  baselineWindow : ℕ
  period_pos : 0 < period
  numStd_pos : 0 < numStd
  baselineWindow_pos : 0 < baselineWindow
  closes : List F := []
  baseline : List F := []
  value : Option F := none
  percentile : Option F := none
  initialized : Bool := false

/-- The loop over the baseline: how many values lie below, how many are
equal. -/
def countRank (baseline : List F) (value : F) : ℕ × ℕ :=
  baseline.foldl (fun counts v =>
    if v < value then (counts.1 + 1, counts.2)
    else if v = value then (counts.1, counts.2 + 1)
    else counts) (0, 0)

/-- The population variance of a full window, and the mean it is taken
around. -/
def meanAndVariance (window : List F) (size : ℕ) : Except IndicatorError (F × F) := do
  let mean ← divide window.sum size
  let var ← divide (window.map fun x => (x - mean) ^ 2).sum size
  return (mean, var)

namespace BollingerBandWidth

/-- The second half of `handle_bar`, with the width just computed. -/
def record (s : BollingerBandWidth F) (value : F) :
    Except IndicatorError (BollingerBandWidth F) := do
  let baseline := Lib.push s.baselineWindow s.baseline value
  let counts := countRank baseline value
  let percentile ← divide ((counts.1 : F) + 1 / 2 * counts.2) baseline.length
  return { s with
    baseline, value := some value, percentile := some percentile, initialized := true }

/-- `sqrt` is the power of one half. -/
def handleBar (sqrt : F → F) (s : BollingerBandWidth F) (bar : PriceBar F) :
    Except IndicatorError (BollingerBandWidth F) := do
  let s := { s with closes := Lib.push s.period s.closes bar.close }
  if s.closes.length < s.period then return s
  let mv ← meanAndVariance s.closes s.period
  let value ← if mv.1 = 0 then .ok 0 else divide (2 * s.numStd * sqrt mv.2) mv.1
  s.record value

end BollingerBandWidth

/-! ## Realized volatility -/

structure RealizedVolatility (F : Type*) [Zero F] [LT F] where
  window : ℕ
  annualisationFactor : F
  two_le_window : 2 ≤ window
  annualisationFactor_pos : 0 < annualisationFactor
  returns : List F := []
  prevClose : Option F := none
  value : Option F := none
  initialized : Bool := false

/-- Between prices that are not both positive there is no return. -/
def RealizedVolatility.handleBar (sqrt log : F → F) (s : RealizedVolatility F) (bar : PriceBar F) :
    Except IndicatorError (RealizedVolatility F) :=
  match s.prevClose with
  | none => .ok { s with prevClose := some bar.close }
  | some prevClose => do
    let returns ←
      if prevClose > 0 ∧ bar.close > 0 then do
        let ratio ← divide bar.close prevClose
        pure (Lib.push s.window s.returns (log ratio))
      else .ok s.returns
    let s := { s with returns, prevClose := some bar.close }
    if s.returns.length < s.window then return s
    let mv ← meanAndVariance s.returns s.window
    return { s with value := some (sqrt mv.2 * s.annualisationFactor), initialized := true }

/-! ## Slope of the moving average -/

structure EMASlope (F : Type*) where
  period : ℕ
  lookback : ℕ
  period_pos : 0 < period
  lookback_pos : 0 < lookback
  seedCloses : List F := []
  ema : Option F := none
  /-- The last `lookback + 1` averages. -/
  emaHistory : List F := []
  value : Option F := none
  initialized : Bool := false

namespace EMASlope

/-- The smoothing factor. -/
def alpha (s : EMASlope F) : F := 2 / ((s.period : F) + 1)

/-- The second half of `handle_bar`, with the average just set. -/
def record (s : EMASlope F) (ema : F) : Except IndicatorError (EMASlope F) := do
  let emaHistory := Lib.push (s.lookback + 1) s.emaHistory ema
  let s := { s with ema := some ema, emaHistory }
  match emaHistory with
  | [] => return s
  | past :: _ =>
    if emaHistory.length < s.lookback + 1 then return s
    let value ← if past = 0 then .ok 0 else divide (ema - past) past
    return { s with value := some value, initialized := true }

def handleBar (s : EMASlope F) (bar : PriceBar F) : Except IndicatorError (EMASlope F) :=
  match s.ema with
  | none => do
    let s := { s with seedCloses := s.seedCloses ++ [bar.close] }
    if s.seedCloses.length < s.period then return s
    let ema ← divide s.seedCloses.sum s.period
    ({ s with seedCloses := [] }).record ema
  | some ema => s.record (s.alpha * bar.close + (1 - s.alpha) * ema)

end EMASlope

end TdSandboxed
