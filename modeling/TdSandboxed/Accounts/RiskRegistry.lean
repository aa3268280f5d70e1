/-
TdSandboxed.Accounts.RiskRegistry — the risk managers of the accounts
(`accounts/risk_registry.py`, `accounts/risk_manager.py`, the risk keys of
`state/redis_state.py`).

A manager is its risk state. It is created when it is first asked for,
from what Redis has under `risk:<id>:state`; from then on Redis only gets
copies. Every Redis call may raise, and a write that raises may have been
executed.

`violations` lists what was pushed to `risk:<id>:violations`. The trim to
the last 1000 of an account and the expiry are left out.
-/
import Mathlib.Algebra.Order.Ring.Rat
import Mathlib.Logic.Function.Basic
import TdSandboxed.Accounts.AccountManager
import TdSandboxed.Accounts.RiskState

namespace TdSandboxed

namespace RiskState

/-- `check_daily_loss_limit` -/
def checkDailyLossLimit (s : RiskState) (limitPercent : ℚ) : Bool × ℚ :=
  (limitPercent ≤ |s.dailyPnlPercent| ∧ s.dailyPnl < 0, s.dailyPnlPercent)

/-- `check_max_drawdown` -/
def checkMaxDrawdown (s : RiskState) (limitPercent : ℚ) : Bool × ℚ :=
  (limitPercent ≤ s.totalDrawdownPercent, s.totalDrawdownPercent)

/-- The check of a rule type. -/
def checkViolation (s : RiskState) (ruleType : String) (limit : ℚ) : Except String (Bool × ℚ) :=
  if ruleType = "daily_loss" then .ok (s.checkDailyLossLimit limit)
  else if ruleType = "max_drawdown" then .ok (s.checkMaxDrawdown limit)
  else .error (valueError ("Unknown rule type: " ++ ruleType))

end RiskState

structure RiskViolation where
  ruleType : String
  currentValue : ℚ
  limitValue : ℚ
  deriving DecidableEq

structure RiskRegistry where
  managers : String → Option RiskState := fun _ => none
  /-- Redis, `risk:<id>:state`. -/
  stored : String → Option RiskState := fun _ => none
  violations : List (String × RiskViolation) := []

/-- What the calls of an update come back with. -/
structure UpdateReplies where
  /-- The state read of `get_or_create` raises. -/
  load : Option String := none
  /-- The `hset` of `save_risk_state`. -/
  save : WriteReply := .completes
  /-- Its `expire` raises. -/
  expire : Option String := none

namespace RiskRegistry

/-- The state of an account: its manager's, or the one a manager would be
created with. -/
def riskState (r : RiskRegistry) (a : String) : RiskState :=
  (r.managers a).getD ((r.stored a).getD {})

def getRiskState (r : RiskRegistry) (a : String) : Option RiskState := r.managers a

def getOrCreate (r : RiskRegistry) (a : String) (load : Option String) :
    RiskRegistry × Except String RiskState :=
  match r.managers a, load with
  | some s, _ => (r, .ok s)
  | none, some x => (r, .error x)
  | none, none =>
    let s := (r.stored a).getD {}
    ({ r with managers := Function.update r.managers a (some s) }, .ok s)

def saveRiskState (r : RiskRegistry) (a : String) (s : RiskState) (save : WriteReply)
    (expire : Option String) : RiskRegistry × Option String :=
  match save with
  | .completes => ({ r with stored := Function.update r.stored a (some s) }, expire)
  | .fails x => (r, some x)
  | .lost x => ({ r with stored := Function.update r.stored a (some s) }, some x)

/-- The manager changes its state and persists it. -/
def updateManager (f : RiskState → RiskState) (r : RiskRegistry) (a : String)
    (replies : UpdateReplies) : RiskRegistry × Option String :=
  match r.getOrCreate a replies.load with
  | (r, .error x) => (r, some x)
  | (r, .ok s) =>
    saveRiskState { r with managers := Function.update r.managers a (some (f s)) } a (f s)
      replies.save replies.expire

def updateAccountEquity (r : RiskRegistry) (a : String) (equity : ℚ) (replies : UpdateReplies) :
    RiskRegistry × Option String :=
  updateManager (·.updateEquity equity) r a replies

def recordAccountTrade (r : RiskRegistry) (a : String) (realizedPnl : ℚ)
    (replies : UpdateReplies) : RiskRegistry × Option String :=
  updateManager (·.recordTrade realizedPnl) r a replies

def checkAccountViolation (r : RiskRegistry) (a ruleType : String) (limit : ℚ)
    (load : Option String) : RiskRegistry × Except String (Bool × ℚ) :=
  match r.getOrCreate a load with
  | (r, .error x) => (r, .error x)
  | (r, .ok s) => (r, s.checkViolation ruleType limit)

/-- `record_violation`. A trim that raises comes after the push. -/
def recordViolation (r : RiskRegistry) (a : String) (v : RiskViolation) (push : WriteReply)
    (trim : Option String) : RiskRegistry × Option String :=
  match push with
  | .completes => ({ r with violations := r.violations ++ [(a, v)] }, trim)
  | .fails x => (r, some x)
  | .lost x => ({ r with violations := r.violations ++ [(a, v)] }, some x)

/-! ## What an update does -/

variable {f : RiskState → RiskState} {r : RiskRegistry} {a : String} {replies : UpdateReplies}

/-- A manager can be had: there is one, or the read that creates it is
answered. -/
def Loads (r : RiskRegistry) (a : String) (load : Option String) : Prop :=
  r.managers a = none → load = none

theorem getOrCreate_of_loads {load : Option String} (h : r.Loads a load) :
    (r.getOrCreate a load).2 = .ok (r.riskState a) ∧
      (r.getOrCreate a load).1.violations = r.violations ∧
      (r.getOrCreate a load).1.stored = r.stored := by
  cases hm : r.managers a with
  | some s => simp [getOrCreate, riskState, hm]
  | none => simp [getOrCreate, riskState, hm, h hm]

theorem getOrCreate_of_not_loads {load : Option String} (h : ¬ r.Loads a load) :
    ∃ x, r.getOrCreate a load = (r, .error x) := by
  simp only [Loads, Classical.not_imp] at h
  obtain ⟨x, hx⟩ := Option.ne_none_iff_exists'.mp h.2
  exact ⟨x, by simp [getOrCreate, h.1, hx]⟩

@[simp] theorem saveRiskState_violations (s : RiskState) (save : WriteReply)
    (expire : Option String) :
    (r.saveRiskState a s save expire).1.violations = r.violations := by
  cases save <;> rfl

@[simp] theorem saveRiskState_managers (s : RiskState) (save : WriteReply)
    (expire : Option String) :
    (r.saveRiskState a s save expire).1.managers = r.managers := by
  cases save <;> rfl

/-- An update lists no violation. -/
theorem updateManager_violations : (updateManager f r a replies).1.violations = r.violations := by
  by_cases h : r.Loads a replies.load
  · obtain ⟨hs, hv, -⟩ := getOrCreate_of_loads h
    rw [← hv]
    unfold updateManager
    generalize r.getOrCreate a replies.load = created at hs
    obtain ⟨r', s⟩ := created
    obtain rfl : s = .ok (r.riskState a) := hs
    exact saveRiskState_violations _ _ _
  · obtain ⟨x, hx⟩ := getOrCreate_of_not_loads h
    simp [updateManager, hx]

/-- After an update whose manager could be had, the manager has the new
state, whatever became of the copy in Redis. -/
theorem updateManager_managers (h : r.Loads a replies.load) :
    (updateManager f r a replies).1.managers a = some (f (r.riskState a)) := by
  obtain ⟨hs, -, -⟩ := getOrCreate_of_loads h
  unfold updateManager
  generalize r.getOrCreate a replies.load = created at hs
  obtain ⟨r', s⟩ := created
  obtain rfl : s = .ok (r.riskState a) := hs
  simp

/-- An update returns exactly when each of its calls completes. -/
theorem updateManager_returns_iff :
    (updateManager f r a replies).2 = none ↔
      r.Loads a replies.load ∧ replies.save = .completes ∧ replies.expire = none := by
  by_cases h : r.Loads a replies.load
  · obtain ⟨hs, -, -⟩ := getOrCreate_of_loads h
    unfold updateManager
    generalize r.getOrCreate a replies.load = created at hs
    obtain ⟨r', s⟩ := created
    obtain rfl : s = .ok (r.riskState a) := hs
    cases hsave : replies.save <;> simp [h, saveRiskState]
  · obtain ⟨x, hx⟩ := getOrCreate_of_not_loads h
    simp [updateManager, hx, h]

end RiskRegistry

end TdSandboxed
