/-
TdSandboxed.Accounts.RiskState — per-account risk metrics
(`accounts/risk_state.py`, `accounts/risk_manager.py`).

`last_updated` and the Redis text form are left out.
-/
import Mathlib.Data.Rat.Defs
import Mathlib.Tactic.NormNum

namespace TdSandboxed

structure RiskState where
  dailyPnl : ℚ := 0
  dailyPnlPercent : ℚ := 0
  currentEquity : ℚ := 0
  peakEquity : ℚ := 0
  totalDrawdownPercent : ℚ := 0
  dailyStartingBalance : ℚ := 0
  deriving DecidableEq

namespace RiskState

def drawdownFromPeak (s : RiskState) : ℚ :=
  if s.peakEquity ≤ 0 then 0 else (s.peakEquity - s.currentEquity) / s.peakEquity * 100

def updateEquity (s : RiskState) (equity : ℚ) : RiskState :=
  let s := { s with
    currentEquity := equity
    peakEquity := if s.peakEquity < equity then equity else s.peakEquity }
  { s with totalDrawdownPercent := s.drawdownFromPeak }

def recordTrade (s : RiskState) (realizedPnl : ℚ) : RiskState :=
  let s := { s with dailyPnl := s.dailyPnl + realizedPnl }
  if 0 < s.dailyStartingBalance then
    { s with dailyPnlPercent := s.dailyPnl / s.dailyStartingBalance * 100 }
  else s

def resetDaily (s : RiskState) (startingBalance : ℚ) : RiskState :=
  { s with dailyPnl := 0, dailyPnlPercent := 0, dailyStartingBalance := startingBalance }

end RiskState

end TdSandboxed
