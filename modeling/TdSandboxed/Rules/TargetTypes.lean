/-
TdSandboxed.Rules.TargetTypes — the consistency rule and the targets
(`rules/types/consistency.py`, `rules/types/targets.py`).

The consistency rule blocks on the share of today in the account's
profits. The three targets never block: they warn when a goal is met.

Each `validate` reads its keys and leaves the rest to `decide`, a function
of numbers, with one lemma that says what it answers.

* A profit history is read through its values alone. A value that is no
  number is skipped, and so is one that is not positive.
* A trading-day count that is a float is cut to an int. An int is its own
  cut; a Decimal, which the source compares as it is, is cut here too.
* True and False in the metadata are the numbers 1 and 0.
-/
import TdSandboxed.Rules.Types

namespace TdSandboxed

/-- `value.values()` for what may be a dict: an empty or missing one has
none. -/
def Value.values (v : Value) : Except PyException (List (Option ℚ)) :=
  if v.truthy = false then .ok []
  else
    match v with
    | .history days => .ok (days.map Prod.snd)
    | v => .error (.attributeError s!"'{v.typeName}' object has no attribute 'values'")

/-! ## Consistency -/

structure ConsistencyRule where
  blockAt : ℚ := 50
  warnAt : List ℚ := [40, 45, 48]
  blockAt_pos : 0 < blockAt
  blockAt_le : blockAt ≤ 100
  warnAt_lt : ∀ w ∈ warnAt, w < blockAt

namespace ConsistencyRule

def name (r : ConsistencyRule) : String := s!"Consistency {pyFloat r.blockAt}%"

/-- The profits among the values of a history. -/
def sumPositivePrior (values : List (Option ℚ)) : ℚ :=
  ((values.filterMap id).filter (0 < ·)).sum

/-- Today's share in percent. Without an earlier profitable day it is zero,
as it is on a day of loss. -/
def share (currentDayPnl sumPositive : ℚ) : ℚ :=
  if currentDayPnl ≤ 0 then 0
  else if sumPositive ≤ 0 then 0
  else
    let total := currentDayPnl + sumPositive
    if total ≤ 0 then 0 else currentDayPnl / total * 100

def computeRatioPercent (context : Dict) : Except PyException ℚ :=
  match (context.getD "current_day_pnl" (.num 0)).toFloat with
  | .error _ => .ok 0
  | .ok currentDayPnl =>
    -- a losing day is answered before the history is looked at
    if currentDayPnl ≤ 0 then .ok 0
    else do
      let values ← (context.getD "daily_profits_history" (.history [])).values
      return share currentDayPnl (sumPositivePrior values)

def decide (r : ConsistencyRule) (ratio : ℚ) : RuleResult :=
  if ratio ≤ 0 then { currentValue := some 0, thresholdValue := some r.blockAt }
  else if r.blockAt ≤ ratio then
    { action := .block,
      message := s!"Today contributes {fmtFixed 2 ratio}% of total " ++
        s!"profits, exceeding the {pyFloat r.blockAt}% consistency limit",
      metadata := [("rule_type", .str "consistency"), ("ratio_percent", .num ratio),
        ("block_at", .num r.blockAt)],
      currentValue := ratio, thresholdValue := r.blockAt }
  else
    match warningReached r.warnAt ratio with
    | some level =>
      { action := .warn,
        message := s!"Today contributes {fmtFixed 2 ratio}% of total " ++
          s!"profits — approaching {pyFloat r.blockAt}% consistency limit",
        metadata := [("rule_type", .str "consistency"), ("ratio_percent", .num ratio),
          ("warn_threshold", .num level), ("block_at", .num r.blockAt)],
        currentValue := ratio, thresholdValue := r.blockAt }
    | none => { currentValue := ratio, thresholdValue := r.blockAt }

def validate (r : ConsistencyRule) (context : Dict) : Except PyException RuleResult := do
  let ratio ← computeRatioPercent context
  return r.decide ratio

def toBaseRule (r : ConsistencyRule) : BaseRule :=
  { ruleType := "consistency", name := r.name, priority := 5, validate := r.validate }

theorem decide_block_iff (r : ConsistencyRule) (ratio : ℚ) :
    (r.decide ratio).action = .block ↔ r.blockAt ≤ ratio := by
  have hb := r.blockAt_pos
  unfold decide
  split
  · rename_i h
    simp [h.trans_lt hb]
  · split
    · rename_i h
      simp [h]
    · rename_i h
      simp only [h, iff_false]
      split <;> simp

/-- The rule lets a share pass without a word below all its levels. -/
theorem decide_allow_iff (r : ConsistencyRule) (ratio : ℚ) :
    (r.decide ratio).action = .allow ↔
      ratio ≤ 0 ∨ ratio < r.blockAt ∧ ∀ w ∈ r.warnAt, ratio < w := by
  unfold decide
  split
  · rename_i h
    simp [h]
  · rename_i h
    split
    · rename_i hb
      simp [h, hb.not_gt]
    · rename_i hb
      rw [not_le] at hb
      cases hw : warningReached r.warnAt ratio with
      | none => simpa [hb] using .inr (warningReached_eq_none.mp hw)
      | some level =>
        have hsome : (warningReached r.warnAt ratio).isSome := by rw [hw]; rfl
        obtain ⟨w, hmem, hle⟩ := warningReached_isSome.mp hsome
        simp only [h, hb, true_and, false_or, reduceCtorEq, false_iff]
        intro hall
        exact (hall w hmem).not_ge hle

end ConsistencyRule

/-! ## Targets -/

structure ProfitTargetRule where
  thresholdPercent : ℚ := 10

namespace ProfitTargetRule

def name (r : ProfitTargetRule) : String := s!"Profit Target {pyFloat r.thresholdPercent}%"

def decide (r : ProfitTargetRule) (total : ℚ) : RuleResult :=
  if r.thresholdPercent ≤ total then
    { action := .warn,
      message := s!"Profit target achieved! {fmtFixed 2 total}% " ++
        s!">= {pyFloat r.thresholdPercent}% target",
      metadata := [("rule_type", .str "profit_target"), ("target_met", .num 1)],
      currentValue := total, thresholdValue := r.thresholdPercent }
  else
    let progress := if 0 < r.thresholdPercent then total / r.thresholdPercent * 100 else 0
    { message := s!"Profit target progress: {fmtFixed 2 total}% of " ++
        s!"{pyFloat r.thresholdPercent}% ({fmtFixed 0 progress}% complete)",
      metadata := [("rule_type", .str "profit_target"), ("target_met", .num 0),
        ("progress_percent", .num progress),
        ("remaining_percent", .num (r.thresholdPercent - total))],
      currentValue := total, thresholdValue := r.thresholdPercent }

def validate (r : ProfitTargetRule) (context : Dict) : Except PyException RuleResult := do
  let total ← (context.getD "total_pnl_percent" (.num 0)).toNum
  return r.decide total

def toBaseRule (r : ProfitTargetRule) : BaseRule :=
  { ruleType := "profit_target", name := r.name, priority := 100, validate := r.validate }

theorem decide_ne_block (r : ProfitTargetRule) (total : ℚ) : (r.decide total).action ≠ .block := by
  unfold decide
  split <;> simp

end ProfitTargetRule

/-- `int(x)` -/
def pyInt (q : ℚ) : ℤ := if 0 ≤ q then ⌊q⌋ else ⌈q⌉

structure MinTradingDaysRule where
  requiredDays : ℤ := 4

namespace MinTradingDaysRule

def name (r : MinTradingDaysRule) : String := s!"Minimum Trading Days ({r.requiredDays})"

def decide (r : MinTradingDaysRule) (count : ℤ) : RuleResult :=
  if r.requiredDays ≤ count then
    { action := .warn,
      message := s!"Minimum trading days requirement met! {count} >= {r.requiredDays} days",
      metadata := [("rule_type", .str "min_trading_days"), ("requirement_met", .num 1)],
      currentValue := some count, thresholdValue := some r.requiredDays }
  else
    { message := s!"Trading days progress: {count} of " ++
        s!"{r.requiredDays} days ({r.requiredDays - count} more needed)",
      metadata := [("rule_type", .str "min_trading_days"), ("requirement_met", .num 0),
        ("remaining_days", .num (r.requiredDays - count))],
      currentValue := some count, thresholdValue := some r.requiredDays }

def validate (r : MinTradingDaysRule) (context : Dict) : Except PyException RuleResult := do
  let count ← (context.getD "trading_days_count" (.num 0)).toNum
  return r.decide (pyInt count)

def toBaseRule (r : MinTradingDaysRule) : BaseRule :=
  { ruleType := "min_trading_days", name := r.name, priority := 100, validate := r.validate }

theorem decide_ne_block (r : MinTradingDaysRule) (count : ℤ) : (r.decide count).action ≠ .block := by
  unfold decide
  split <;> simp

end MinTradingDaysRule

structure WeeklyTargetRule where
  thresholdPercent : ℚ := 5 / 4

namespace WeeklyTargetRule

def name (r : WeeklyTargetRule) : String := s!"Weekly Target {pyFloat r.thresholdPercent}%"

/-- Whatever is no number counts as zero. -/
def coerce (v : Value) : ℚ :=
  match v.toFloat with
  | .ok q => q
  | .error _ => 0

def decide (r : WeeklyTargetRule) (weekly : ℚ) : RuleResult :=
  if r.thresholdPercent ≤ weekly then
    { action := .warn,
      message := s!"Weekly profit target met: {fmtFixed 2 weekly}% " ++
        s!">= {pyFloat r.thresholdPercent}%",
      metadata := [("rule_type", .str "weekly_target"), ("weekly_pnl_percent", .num weekly),
        ("target_met", .num 1)],
      currentValue := weekly, thresholdValue := r.thresholdPercent }
  else
    { metadata := [("rule_type", .str "weekly_target"), ("weekly_pnl_percent", .num weekly),
        ("target_met", .num 0)],
      currentValue := weekly, thresholdValue := r.thresholdPercent }

def validate (r : WeeklyTargetRule) (context : Dict) : Except PyException RuleResult :=
  .ok (r.decide (coerce (context.getD "weekly_pnl_percent" (.num 0))))

def toBaseRule (r : WeeklyTargetRule) : BaseRule :=
  { ruleType := "weekly_target", name := r.name, priority := 100, validate := r.validate }

theorem decide_action (r : WeeklyTargetRule) (weekly : ℚ) :
    (r.decide weekly).action = if r.thresholdPercent ≤ weekly then .warn else .allow := by
  unfold decide
  split <;> rfl

theorem decide_ne_block (r : WeeklyTargetRule) (weekly : ℚ) : (r.decide weekly).action ≠ .block := by
  rw [decide_action]
  split <;> simp

end WeeklyTargetRule

end TdSandboxed
