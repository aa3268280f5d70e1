/-
TdSandboxed.Backtesting.Metrics — the prop-firm section of the metrics of a
backtest (`backtesting/metrics/calculator.py`,
`backtesting/metrics/prop_firm_metrics.py`) and the part of the runner that
has it computed (`backtesting/engine.py`).

The calculator gets the equity curve and the breaches that the compliance
actor kept, and the thresholds of the runner's configuration. It asks no
rule.

The other sections of the schema (profit, risk and trade figures) are left
out.
-/
import TdSandboxed.Backtesting.PropFirmActor

namespace TdSandboxed

/-- Timestamps and equities. -/
abbrev EquityCurve := List (ℤ × ℚ)

/-- One equity in the loop of `compute_max_overall_drawdown_pct`: the peak
so far and the largest fall from it. -/
def drawdownStep (acc : ℚ × ℚ) (equity : ℚ) : ℚ × ℚ :=
  let (peak, maxDdPct) := acc
  if peak < equity then (equity, maxDdPct)
  else if 0 < peak then
    let dd := (peak - equity) / peak * 100
    (peak, if maxDdPct < dd then dd else maxDdPct)
  else (peak, maxDdPct)

/-- Largest peak-to-trough drawdown in percent of the peak. -/
def computeMaxOverallDrawdownPct (curve : EquityCurve) : ℚ :=
  match curve with
  | [] => 0
  | [_] => 0
  | first :: _ => ((curve.map Prod.snd).foldl drawdownStep (first.2, 0)).2

def computeProfitTargetHit (initialBalance finalBalance targetPct : ℚ) : Bool :=
  if initialBalance ≤ 0 then false
  else targetPct ≤ (finalBalance - initialBalance) / initialBalance * 100

/-- Number of UTC dates of the curve. -/
def computeTradingDaysCount (curve : EquityCurve) : ℕ :=
  (curve.map fun point => utcDate point.1).dedup.length

structure PropFirmComplianceMetrics where
  dailyLossBreaches : ℕ
  maxDdBreach : Bool
  profitTargetHit : Bool
  minTradingDaysMet : Bool
  deriving DecidableEq

structure BacktestRunnerConfig where
  initialBalance : ℚ
  initialBalance_pos : 0 < initialBalance
  profitTargetPct : ℚ := 10
  maxDdPct : ℚ := 10
  minTradingDays : ℤ := 4

/-- The compliance section of `calculate_metrics`. -/
def calculateCompliance (initialBalance finalBalance : ℚ) (equityCurve : EquityCurve)
    (breaches : List BreachEvent) (profitTargetPct maxDdPct : ℚ) (minTradingDays : ℤ) :
    PropFirmComplianceMetrics :=
  { dailyLossBreaches := breaches.countP fun b => b.ruleName = "daily_loss_limit"
    maxDdBreach := maxDdPct < computeMaxOverallDrawdownPct equityCurve
    profitTargetHit := computeProfitTargetHit initialBalance finalBalance profitTargetPct
    minTradingDaysMet := minTradingDays ≤ computeTradingDaysCount equityCurve }

namespace BacktestRunnerConfig

/-- The configuration of the actor the runner attaches. -/
def attachPropFirmCompliance (config : BacktestRunnerConfig) (accountId : String)
    (sessionOffset : ℤ → ℤ := fun _ => 0) : PropFirmComplianceActorConfig :=
  { accountId, initialBalance := config.initialBalance, sessionOffset }

/-- The section `get_result` assembles from the state of the actor. -/
def getResult (config : BacktestRunnerConfig) (actor : PropFirmComplianceActor)
    (finalBalance : ℚ) : PropFirmComplianceMetrics :=
  calculateCompliance config.initialBalance finalBalance actor.equityCurve actor.breaches
    config.profitTargetPct config.maxDdPct config.minTradingDays

end BacktestRunnerConfig

end TdSandboxed
