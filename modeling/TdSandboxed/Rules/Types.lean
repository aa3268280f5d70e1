/-
TdSandboxed.Rules.Types — the three rule types with a numeric limit
(`rules/types/drawdown.py`, `rules/types/position.py`).

`DailyLossLimitRule` and `MaxDrawdownRule` differ in the number they read
and in their texts. What they do with it is `percentLimit`, written once.
`MaxPositionSizeRule` compares lots twice, the request alone and then the
request on top of the open lots, and keeps its own body.

A constructor's fields that `validate` never reads (reset time, timezone,
the YAML action) are left out. `MaxDrawdownRule.__init__` refuses an
unknown method, so the method is an enumeration.
-/
import TdSandboxed.Rules.BaseRule

namespace TdSandboxed

/-- The highest warning level reached: `sorted(warning_at, reverse=True)`,
first one not above the usage. -/
def warningReached (warningAt : List ℚ) (usagePercent : ℚ) : Option ℚ :=
  (warningAt.insertionSort (· ≥ ·)).find? (· ≤ usagePercent)

/-- The ladder has an entry at or below the value. -/
theorem warningReached_isSome {warningAt : List ℚ} {x : ℚ} :
    (warningReached warningAt x).isSome ↔ ∃ w ∈ warningAt, w ≤ x := by
  simp [warningReached, List.find?_isSome]

theorem warningReached_eq_none {warningAt : List ℚ} {x : ℚ} :
    warningReached warningAt x = none ↔ ∀ w ∈ warningAt, x < w := by
  simp [warningReached, List.find?_eq_none]

/-! ## Percentage limits -/

/-- ALLOW at or below zero, BLOCK from the threshold on, WARN from the
highest warning level reached. -/
def percentLimit (threshold : ℚ) (warningAt : List ℚ) (value : ℚ) (blockMessage : String)
    (warnMessage : ℚ → String) (blockMetadata : Dict) (warnMetadata : ℚ → ℚ → Dict) :
    RuleResult :=
  if value ≤ 0 then { currentValue := some 0, thresholdValue := some threshold }
  else if threshold ≤ value then
    { action := .block, message := blockMessage, metadata := blockMetadata,
      currentValue := value, thresholdValue := some threshold }
  else
    let usagePercent := value / threshold * 100
    match warningReached warningAt usagePercent with
    | some level =>
      { action := .warn, message := warnMessage usagePercent,
        metadata := warnMetadata level usagePercent,
        currentValue := value, thresholdValue := some threshold }
    | none => { currentValue := value, thresholdValue := some threshold }

theorem percentLimit_block_iff {threshold value : ℚ} {warningAt : List ℚ} {bm : String}
    {wm : ℚ → String} {bd : Dict} {wd : ℚ → ℚ → Dict} :
    (percentLimit threshold warningAt value bm wm bd wd).action = .block ↔
      0 < value ∧ threshold ≤ value := by
  unfold percentLimit
  split
  · rename_i h
    simp [h.not_gt]
  · rename_i h
    have hpos : 0 < value := not_le.mp h
    split
    · rename_i ht
      simp [hpos, ht]
    · rename_i ht
      simp only [hpos, ht, and_false, iff_false]
      split <;> simp

theorem percentLimit_warn_iff {threshold value : ℚ} {warningAt : List ℚ} {bm : String}
    {wm : ℚ → String} {bd : Dict} {wd : ℚ → ℚ → Dict} :
    (percentLimit threshold warningAt value bm wm bd wd).action = .warn ↔
      0 < value ∧ value < threshold ∧ ∃ w ∈ warningAt, w ≤ value / threshold * 100 := by
  unfold percentLimit
  split
  · rename_i h
    simp [h.not_gt]
  · rename_i h
    have hpos : 0 < value := not_le.mp h
    split
    · rename_i ht
      simp [ht.not_gt]
    · rename_i ht
      rw [not_le] at ht
      dsimp only
      cases hw : warningReached warningAt (value / threshold * 100) with
      | none =>
        have hnone := warningReached_eq_none.mp hw
        simp only [reduceCtorEq, hpos, ht, true_and, false_iff, not_exists, not_and, not_le]
        exact hnone
      | some level =>
        have hsome : (warningReached warningAt (value / threshold * 100)).isSome := by
          rw [hw]
          rfl
        simp only [hpos, ht, true_and, true_iff]
        exact warningReached_isSome.mp hsome

/-- A value breaches a limit. -/
def Breaches (threshold value : ℚ) : Prop := 0 < value ∧ threshold ≤ value

/-- A value stays below the limit and reaches a level of the ladder. -/
def Warns (threshold : ℚ) (warningAt : List ℚ) (value : ℚ) : Prop :=
  0 < value ∧ value < threshold ∧ ∃ w ∈ warningAt, w ≤ value / threshold * 100

/-- Two values in one band of a limit: both over it, both in the ladder, or
neither. -/
def SameBand (threshold : ℚ) (warningAt : List ℚ) (x y : ℚ) : Prop :=
  (Breaches threshold x ↔ Breaches threshold y) ∧
    (Warns threshold warningAt x ↔ Warns threshold warningAt y)

/-- An action is known from two questions. -/
theorem RuleAction.eq_iff (a b : RuleAction) :
    a = b ↔ (a = .block ↔ b = .block) ∧ (a = .warn ↔ b = .warn) := by
  cases a <;> cases b <;> decide

/-- **The limit answers alike in one band**, whatever the texts. -/
theorem percentLimit_action_eq_iff {threshold x y : ℚ} {warningAt : List ℚ} {bm bm' : String}
    {wm wm' : ℚ → String} {bd bd' : Dict} {wd wd' : ℚ → ℚ → Dict} :
    (percentLimit threshold warningAt x bm wm bd wd).action =
        (percentLimit threshold warningAt y bm' wm' bd' wd').action ↔
      SameBand threshold warningAt x y := by
  rw [RuleAction.eq_iff, percentLimit_block_iff, percentLimit_block_iff, percentLimit_warn_iff,
    percentLimit_warn_iff]
  rfl

/-- No limit and no ladder tells two values apart exactly when they are
equal as far as they are positive. -/
theorem sameBand_forall_iff {x y : ℚ} :
    (∀ threshold warningAt, SameBand threshold warningAt x y) ↔ max x 0 = max y 0 := by
  constructor
  · intro h
    -- at the limit `v` exactly the values from `v` on breach
    have hle {u v : ℚ} (hband : ∀ threshold, Breaches threshold v → Breaches threshold u) :
        max v 0 ≤ max u 0 := by
      rcases le_or_gt v 0 with hv | hv
      · exact (max_eq_right hv).le.trans (le_max_right u 0)
      · have hbreach := hband v ⟨hv, le_rfl⟩
        exact max_le_max_right 0 hbreach.2
    exact le_antisymm (hle fun t => (h t []).1.mp) (hle fun t => (h t []).1.mpr)
  · intro h threshold warningAt
    rcases le_or_gt x 0 with hx | hx
    · have hy : y ≤ 0 := by
        rw [max_eq_right hx] at h
        exact h ▸ le_max_left y 0
      simp [SameBand, Breaches, Warns, hx.not_gt, hy.not_gt]
    · have hxy : x = y := by
        rw [max_eq_left hx.le] at h
        rcases le_or_gt y 0 with hy | hy
        · rw [max_eq_right hy] at h
          exact absurd h hx.ne'
        · rw [h, max_eq_left hy.le]
      rw [hxy]
      exact ⟨Iff.rfl, Iff.rfl⟩

/-! ## Losses in percent -/

/-- Percent of a base. Of no positive base it is zero. -/
def percentOf (base x : ℚ) : ℚ := if 0 < base then x / base * 100 else 0

/-- The fall from a reference to an equity, in percent. -/
def fallFrom (reference equity : ℚ) : ℚ :=
  percentOf reference (max (reference - equity) 0)

theorem percentOf_neg (base x : ℚ) : percentOf base (-x) = -percentOf base x := by
  unfold percentOf
  split
  · ring
  · rw [neg_zero]

theorem fallFrom_of_le {reference equity : ℚ} (h : equity ≤ reference) :
    fallFrom reference equity = percentOf reference (reference - equity) := by
  rw [fallFrom, max_eq_left (sub_nonneg.mpr h)]

theorem fallFrom_of_ge {reference equity : ℚ} (h : reference ≤ equity) :
    fallFrom reference equity = 0 := by
  rw [fallFrom, max_eq_right (sub_nonpos.mpr h), percentOf]
  split <;> simp

theorem fallFrom_nonneg (reference equity : ℚ) : 0 ≤ fallFrom reference equity := by
  unfold fallFrom percentOf
  split
  · positivity
  · exact le_rfl

structure DailyLossLimitRule where
  thresholdPercent : ℚ := 5
  warningAt : List ℚ := [70, 80, 90]

namespace DailyLossLimitRule

def name (r : DailyLossLimitRule) : String := s!"Daily Loss Limit {pyFloat r.thresholdPercent}%"

/-- Losses are negative percentages. -/
def validate (r : DailyLossLimitRule) (context : Dict) : Except PyException RuleResult := do
  let dailyPnlPercent ← (context.getD "daily_pnl_percent" (.num 0)).toNum
  let loss := -dailyPnlPercent
  return percentLimit r.thresholdPercent r.warningAt loss
    s!"Daily loss {fmtFixed 2 loss}% exceeds limit of {pyFloat r.thresholdPercent}%"
    (fun usage => s!"Daily loss at {fmtFixed 0 usage}% of " ++
      s!"{pyFloat r.thresholdPercent}% limit ({fmtFixed 2 loss}%)")
    [("rule_type", .str "daily_loss_limit"), ("daily_pnl_percent", .num dailyPnlPercent)]
    (fun level usage => [("rule_type", .str "daily_loss_limit"),
      ("warning_threshold", .num level), ("usage_percent", .num usage)])

def toBaseRule (r : DailyLossLimitRule) : BaseRule :=
  { ruleType := "daily_loss_limit", name := r.name, priority := 1, validate := r.validate }

end DailyLossLimitRule

inductive DrawdownMethod
  | equityPeak
  | balanceBased
  deriving DecidableEq

def DrawdownMethod.text : DrawdownMethod → String
  | .equityPeak => "equity_peak"
  | .balanceBased => "balance_based"

structure MaxDrawdownRule where
  thresholdPercent : ℚ := 10
  reference : String := "initial_balance"
  method : DrawdownMethod := .equityPeak
  warningAt : List ℚ := [50, 70, 85]

namespace MaxDrawdownRule

def name (r : MaxDrawdownRule) : String := s!"Max Drawdown {pyFloat r.thresholdPercent}%"

def computeDrawdownPercent (r : MaxDrawdownRule) (context : Dict) : Except PyException ℚ :=
  match r.method with
  | .equityPeak => (context.getD "total_drawdown_percent" (.num 0)).toFloat
  | .balanceBased => do
    let initialBalance ← (context.getD "initial_balance" (.num 0)).toNum
    if initialBalance ≤ 0 then return 0
    let currentEquity ← (context.getD "current_equity" (.num 0)).toNum
    return if initialBalance ≤ currentEquity then 0
      else (initialBalance - currentEquity) / initialBalance * 100

theorem computeDrawdownPercent_equityPeak {r : MaxDrawdownRule} {c : Dict}
    (hm : r.method = .equityPeak) :
    r.computeDrawdownPercent c = (c.getD "total_drawdown_percent" (.num 0)).toFloat := by
  unfold computeDrawdownPercent
  rw [hm]

/-- A balance that is not positive is answered before the equity is read. -/
theorem computeDrawdownPercent_balanceBased {r : MaxDrawdownRule} {c : Dict}
    (hm : r.method = .balanceBased) {balance : ℚ}
    (hbalance : c.getD "initial_balance" (.num 0) = .num balance) :
    r.computeDrawdownPercent c =
      if balance ≤ 0 then .ok 0
      else fallFrom balance <$> (c.getD "current_equity" (.num 0)).toNum := by
  unfold computeDrawdownPercent
  rw [hm, hbalance]
  show (if balance ≤ 0 then Except.ok 0
    else (c.getD "current_equity" (.num 0)).toNum >>= fun equity =>
      Except.ok (if balance ≤ equity then 0 else (balance - equity) / balance * 100)) = _
  by_cases hb : balance ≤ 0
  · rw [if_pos hb, if_pos hb]
  · rw [if_neg hb, if_neg hb]
    cases (c.getD "current_equity" (.num 0)).toNum with
    | error e => rfl
    | ok equity =>
      show Except.ok (if balance ≤ equity then 0 else (balance - equity) / balance * 100) =
        Except.ok (fallFrom balance equity)
      by_cases he : balance ≤ equity
      · rw [if_pos he, fallFrom_of_ge he]
      · rw [if_neg he, fallFrom_of_le (not_le.mp he).le, percentOf, if_pos (not_le.mp hb)]

/-- What both methods compute from their keys. -/
theorem computeDrawdownPercent_eq {r : MaxDrawdownRule} {c : Dict} {peakFall balance equity : ℚ}
    (hpeak : c.getD "total_drawdown_percent" (.num 0) = .num peakFall)
    (hbalance : c.getD "initial_balance" (.num 0) = .num balance)
    (hequity : c.getD "current_equity" (.num 0) = .num equity) :
    r.computeDrawdownPercent c =
      .ok (match r.method with
        | .equityPeak => peakFall
        | .balanceBased => fallFrom balance equity) := by
  cases hm : r.method with
  | equityPeak =>
    rw [computeDrawdownPercent_equityPeak hm, hpeak]
    rfl
  | balanceBased =>
    rw [computeDrawdownPercent_balanceBased hm hbalance, hequity]
    by_cases hb : balance ≤ 0
    · rw [if_pos hb, fallFrom, percentOf, if_neg hb.not_gt]
    · rw [if_neg hb]
      rfl

def validate (r : MaxDrawdownRule) (context : Dict) : Except PyException RuleResult := do
  let drawdown ← r.computeDrawdownPercent context
  return percentLimit r.thresholdPercent r.warningAt drawdown
    s!"Max drawdown {fmtFixed 2 drawdown}% exceeds limit of {pyFloat r.thresholdPercent}%"
    (fun usage => s!"Drawdown at {fmtFixed 0 usage}% of " ++
      s!"{pyFloat r.thresholdPercent}% limit ({fmtFixed 2 drawdown}%)")
    [("rule_type", .str "max_drawdown"), ("reference", .str r.reference),
      ("method", .str r.method.text)]
    (fun level usage => [("rule_type", .str "max_drawdown"), ("warning_threshold", .num level),
      ("usage_percent", .num usage), ("method", .str r.method.text)])

def toBaseRule (r : MaxDrawdownRule) : BaseRule :=
  { ruleType := "max_drawdown", name := r.name, priority := 2, validate := r.validate }

end MaxDrawdownRule

/-! ## Position size -/

/-- Scaling modes: `None` and `"fixed"` use `max_lots` as it is. An unknown
mode is logged and replaced by `None`. -/
inductive Scaling
  | fixed
  | per10kBalance
  deriving DecidableEq

structure MaxPositionSizeRule where
  maxLots : ℚ := 1
  scaling : Scaling := .fixed
  warningAt : List ℚ := [70, 80, 90]

namespace MaxPositionSizeRule

def name (r : MaxPositionSizeRule) : String :=
  match r.scaling with
  | .per10kBalance => s!"Position Size Limit (scaled: {pyFloat r.maxLots} lots per $10k)"
  | .fixed => s!"Position Size Limit {pyFloat r.maxLots} lots"

/-- The limit in lots for an account balance. A balance that is not
positive falls back to the fixed limit. -/
def effectiveMaxAt (r : MaxPositionSizeRule) (accountBalance : ℚ) : ℚ :=
  if accountBalance ≤ 0 then r.maxLots else accountBalance / 10000 * r.maxLots

def calculateEffectiveMax (r : MaxPositionSizeRule) (context : Dict) : Except PyException ℚ :=
  match r.scaling with
  | .fixed => .ok r.maxLots
  | .per10kBalance => do
    let accountBalance ← (context.getD "account_balance" (.num 0)).toNum
    return r.effectiveMaxAt accountBalance

def scalingValue (r : MaxPositionSizeRule) : Value :=
  match r.scaling with
  | .fixed => .none
  | .per10kBalance => .str "per_10k_balance"

/-- What the rule answers for a request on top of the open lots. -/
def decide (r : MaxPositionSizeRule) (requested current effectiveMax : ℚ) : RuleResult :=
  let totalExposure := |current| + |requested|
  if requested ≤ 0 then
    { currentValue := totalExposure, thresholdValue := effectiveMax }
  else if effectiveMax < requested then
    { action := .block,
      message := s!"Position size {fmtFixed 1 requested} exceeds limit {fmtFixed 1 effectiveMax} lots",
      metadata := [("rule_type", .str "max_position_size"), ("requested_lots", .num requested),
        ("effective_max", .num effectiveMax), ("scaling", r.scalingValue)],
      currentValue := requested, thresholdValue := effectiveMax }
  else if effectiveMax < totalExposure then
    { action := .block,
      message := s!"Total exposure {fmtFixed 1 totalExposure} lots would exceed limit " ++
        s!"of {fmtFixed 1 effectiveMax} lots " ++
        s!"(current: {fmtFixed 1 current} + requested: {fmtFixed 1 requested})",
      metadata := [("rule_type", .str "max_position_size"), ("requested_lots", .num requested),
        ("current_position_lots", .num current), ("total_exposure", .num totalExposure),
        ("effective_max", .num effectiveMax), ("scaling", r.scalingValue)],
      currentValue := totalExposure, thresholdValue := effectiveMax }
  else
    let usagePercent := if 0 < effectiveMax then totalExposure / effectiveMax * 100 else 100
    match warningReached r.warningAt usagePercent with
    | some level =>
      { action := .warn,
        message := s!"Position size at {fmtFixed 0 usagePercent}% of " ++
          s!"{fmtFixed 1 effectiveMax} lots limit ({fmtFixed 1 totalExposure} lots)",
        metadata := [("rule_type", .str "max_position_size"), ("warning_threshold", .num level),
          ("usage_percent", .num usagePercent)],
        currentValue := totalExposure, thresholdValue := effectiveMax }
    | none => { currentValue := totalExposure, thresholdValue := effectiveMax }

def validate (r : MaxPositionSizeRule) (context : Dict) : Except PyException RuleResult := do
  let requested ← (context.getD "requested_lots" (.num 0)).toNum
  let current ← (context.getD "current_position_lots" (.num 0)).toNum
  let effectiveMax ← r.calculateEffectiveMax context
  return r.decide requested current effectiveMax

def toBaseRule (r : MaxPositionSizeRule) : BaseRule :=
  { ruleType := "max_position_size", name := r.name, priority := 3, validate := r.validate }

/-- The comparison with the request alone is implied by the one with the
total: the rule blocks exactly when the total is over the limit. -/
theorem decide_block_iff (r : MaxPositionSizeRule) (requested current effectiveMax : ℚ) :
    (r.decide requested current effectiveMax).action = .block ↔
      0 < requested ∧ effectiveMax < |current| + requested := by
  have hcur : 0 ≤ |current| := abs_nonneg current
  unfold decide
  dsimp only
  split
  · rename_i h
    simp [h.not_gt]
  · rename_i h
    have hpos : 0 < requested := not_le.mp h
    rw [abs_of_pos hpos]
    split
    · rename_i hreq
      simp [hpos, hreq.trans_le (le_add_of_nonneg_left hcur)]
    · split
      · rename_i htot
        simp [hpos, htot]
      · rename_i htot
        simp only [hpos, htot, and_false, iff_false]
        split <;> simp

end MaxPositionSizeRule

end TdSandboxed
