/-
TdSandboxed.State.DailyPnLRecalculator — the daily P&L after a crash
(`state/daily_pnl_recalculator.py`).

The recalculator adds what the trades closed since the session boundary
realized, by the `trades` table, to the unrealized P&L of the account's
tracker, and writes the sum into `daily_pnl` of the account's risk state.
Later on `record_account_trade` adds what each close realizes to that
field; `LaterOp` is what a tracker is told after the recovery.

`SUM` leaves out rows whose `pnl_dollars` is null.
-/
import Mathlib.Algebra.BigOperators.Group.List.Basic
import TdSandboxed.Accounts.PnLTracker
import TdSandboxed.Accounts.RiskRegistry
import TdSandboxed.Config.SessionClock

namespace TdSandboxed

/-- A row of `trades`, with the columns the query reads. -/
structure TradeRecord where
  accountId : String
  status : String
  exitTime : Option ℤ := none
  pnlDollars : Option ℚ := none
  deriving DecidableEq

/-- Where the session of an account comes from. -/
structure SessionSources where
  zoneInfo : String → Zone
  /-- The session of a firm, if there is a registry and it knows the firm. -/
  firmRegistry : Option (String → Option SessionConfig) := none
  /-- The firm of an account, if there is a manager and it knows both. -/
  accountManager : Option (String → Option String) := none

structure RecalculatedPnL where
  accountId : String
  realizedPnl : ℚ
  unrealizedPnl : ℚ
  totalDailyPnl : ℚ
  tradeCount : ℕ
  calculationTime : ℤ
  dayBoundary : ℤ
  deriving DecidableEq

structure RecalculationResult where
  success : Bool
  recalculated : Option RecalculatedPnL
  snapshotValue : ℚ
  adjustment : ℚ
  errorMessage : Option String := none
  deriving DecidableEq

namespace DailyPnLRecalculator

def resolveSession (c : SessionSources) (a : String) : SessionConfig :=
  match c.firmRegistry, c.accountManager with
  | some firms, some firmId => ((firmId a).bind firms).getD defaultSession
  | _, _ => defaultSession

def getDayBoundary (c : SessionSources) (a : String) (now : ℤ) : ℤ :=
  (resolveSession c a).previousResetAt c.zoneInfo now

/-- The rows of an account that the query selects. -/
def closedSince (a : String) (boundary : ℤ) (trades : List TradeRecord) : List TradeRecord :=
  trades.filter fun t => t.accountId = a ∧ t.status = "closed" ∧ t.exitTime.any (boundary ≤ ·)

/-- `COALESCE(SUM(pnl_dollars), 0)` -/
def sumPnl (trades : List TradeRecord) : ℚ := (trades.filterMap TradeRecord.pnlDollars).sum

/-- `_query_realized_pnl`, for what the table holds. -/
def queryRealizedPnl (a : String) (boundary : ℤ) (trades : List TradeRecord) : ℚ × ℕ :=
  (sumPnl (closedSince a boundary trades), (closedSince a boundary trades).length)

def getUnrealizedPnl (tracker : Option PnLTracker) : ℚ :=
  (tracker.map PnLTracker.getTotalUnrealizedPnl).getD 0

/-- `recalculate_daily_pnl`. The reply of the database is the table or the
text of the exception. -/
def recalculateDailyPnl (c : SessionSources) (a : String) (snapshotDailyPnl : ℚ) (now : ℤ)
    (database : Except String (List TradeRecord)) (tracker : Option PnLTracker) :
    RecalculationResult :=
  match database with
  | .error x =>
    { success := false, recalculated := none, snapshotValue := snapshotDailyPnl, adjustment := 0
      errorMessage := some x }
  | .ok trades =>
    let boundary := getDayBoundary c a now
    let (realizedPnl, tradeCount) := queryRealizedPnl a boundary trades
    let unrealizedPnl := getUnrealizedPnl tracker
    let totalDailyPnl := realizedPnl + unrealizedPnl
    { success := true
      recalculated := some
        { accountId := a, realizedPnl, unrealizedPnl, totalDailyPnl, tradeCount
          calculationTime := now, dayBoundary := boundary }
      snapshotValue := snapshotDailyPnl
      adjustment := totalDailyPnl - snapshotDailyPnl }

/-- `_update_risk_state` -/
def updateRiskState (r : RiskRegistry) (a : String) (p : RecalculatedPnL) (save : WriteReply)
    (expire : Option String) : RiskRegistry × Option String :=
  match r.getRiskState a with
  | none => (r, none)
  | some s =>
    let s := { s with dailyPnl := p.totalDailyPnl }
    let s :=
      if 0 < s.dailyStartingBalance then
        { s with dailyPnlPercent := p.totalDailyPnl / s.dailyStartingBalance * 100 }
      else s
    RiskRegistry.saveRiskState { r with managers := Function.update r.managers a (some s) } a s
      save expire

/-- `apply_recalculation` -/
def applyRecalculation (r : RiskRegistry) (a : String) (result : RecalculationResult)
    (save : WriteReply) (expire : Option String) : RiskRegistry × Option String :=
  match result.success, result.recalculated with
  | true, some p => updateRiskState r a p save expire
  | _, _ => (r, none)

end DailyPnLRecalculator

/-! ## After the recovery -/

/-- What the tracker of the account is told. -/
inductive LaterOp
  | tick (symbol : String) (bid ask : ℚ)
  | tradeExecuted (result : OrderResult) (order : Order)
  | positionClosed (positionId : String) (realizedPnl : ℚ)
  deriving DecidableEq

/-- The account's tracker and the risk registry. -/
structure RecoveredBooks where
  tracker : PnLTracker
  registry : RiskRegistry

namespace RecoveredBooks

/-- `update_account_equity` with the tracker's equity. -/
def updateEquity (s : RecoveredBooks) (a : String) : RecoveredBooks :=
  { s with registry := (s.registry.updateAccountEquity a s.tracker.currentEquity {}).1 }

/-- One call on the tracker, from start to end. -/
def step (a : String) (s : RecoveredBooks) : LaterOp → RecoveredBooks
  | .tick symbol bid ask =>
    if s.tracker.positions.any (·.symbol = symbol) then
      updateEquity { s with tracker := s.tracker.onTick symbol bid ask } a
    else s
  | .tradeExecuted r o =>
    if r.isFilled then updateEquity { s with tracker := s.tracker.record o r } a else s
  | .positionClosed id pnl =>
    if id ∈ s.tracker.positions.map Position.positionId then
      updateEquity
        { tracker := s.tracker.onPositionClosed id pnl
          registry := (s.registry.recordAccountTrade a pnl {}).1 } a
    else s

/-- What a call realizes: a close of a position that is there. -/
def realizedBy (s : RecoveredBooks) : LaterOp → ℚ
  | .positionClosed id pnl =>
    if id ∈ s.tracker.positions.map Position.positionId then pnl else 0
  | _ => 0

def run (a : String) (s : RecoveredBooks) (ops : List LaterOp) : RecoveredBooks :=
  ops.foldl (step a) s

/-- What the trades closed along some calls realize. -/
def realizedAlong (a : String) : RecoveredBooks → List LaterOp → ℚ
  | _, [] => 0
  | s, op :: ops => s.realizedBy op + realizedAlong a (s.step a op) ops

end RecoveredBooks

end TdSandboxed
