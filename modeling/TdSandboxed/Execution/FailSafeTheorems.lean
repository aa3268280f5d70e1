/-
TdSandboxed.Execution.FailSafeTheorems — an account without a risk state.

`_build_account_state` then answers zeros, with the comment that
validation will fail safe. A daily loss of zero and a drawdown of zero are
below every limit, so the rules that watch losses let everything pass. The
position rule falls back to its fixed limit and no open lots, and stops
only an order larger than the limit. `fail_safe_iff` is the exact list of
what stops an order here.
-/
import TdSandboxed.Execution.ReservationTheorems
import TdSandboxed.Execution.SendTheorems

namespace TdSandboxed

/-- A rule of one of the modelled types, or any other. -/
inductive Rule
  | dailyLoss (r : DailyLossLimitRule)
  | maxDrawdown (r : MaxDrawdownRule)
  | maxPositionSize (r : MaxPositionSizeRule)
  | other (r : BaseRule)

namespace Rule

def toBaseRule : Rule → BaseRule
  | .dailyLoss r => r.toBaseRule
  | .maxDrawdown r => r.toBaseRule
  | .maxPositionSize r => r.toBaseRule
  | .other r => r

/-- A drawdown, daily-loss or position-size rule. -/
def isLimit : Rule → Bool
  | .other _ => false
  | _ => true

/-- What stops an order for which everything but the request is zero. -/
def StopsAtZero (strict : Bool) (order : Order) (context : Dict) : Rule → Prop
  | .dailyLoss _ | .maxDrawdown _ => False
  | .maxPositionSize r => r.maxLots < order.volume
  | .other r => r.Stops strict context

end Rule

variable {w : Wiring} {b : Books} {o : Order} {now : ℚ} {strict : Bool} {c : Dict}

/-- The numbers the loss rules read are zero. -/
structure Zeros (c : Dict) : Prop where
  dailyPnl : c.getD "daily_pnl_percent" (.num 0) = .num 0
  drawdown : c.getD "total_drawdown_percent" (.num 0) = .num 0
  initialBalance : c.getD "initial_balance" (.num 0) = .num 0
  equity : c.getD "current_equity" (.num 0) = .num 0

theorem zeros_of_no_risk (hrisk : b.risk o.accountId = none) : Zeros (orderContext w b o now) := by
  constructor <;>
    simp [orderContext, OrderValidator.context, buildValidationContext, Dict.update,
      buildAccountState, hrisk, minimalAccountState]

/-- No loss is never a loss over the limit, whatever the limit. -/
theorem dailyLoss_passes (r : DailyLossLimitRule) (hc : Zeros c) :
    ¬r.toBaseRule.Stops strict c := by
  intro hstops
  have hval : r.toBaseRule.validate c = r.validate c := rfl
  rw [DailyLossLimitRule.validate, hc.dailyPnl] at hval
  have hblock := (BaseRule.stops_ok_iff hval).mp hstops
  have hpos := (percentLimit_block_iff.mp hblock).1
  simp at hpos

theorem computeDrawdown_zero (r : MaxDrawdownRule) (hc : Zeros c) :
    r.computeDrawdownPercent c = .ok 0 := by
  unfold MaxDrawdownRule.computeDrawdownPercent
  cases r.method with
  | equityPeak =>
    rw [hc.drawdown]
    rfl
  | balanceBased =>
    -- a balance of zero is answered before it is divided by
    rw [hc.initialBalance, hc.equity]
    rfl

theorem maxDrawdown_passes (r : MaxDrawdownRule) (hc : Zeros c) :
    ¬r.toBaseRule.Stops strict c := by
  intro hstops
  have hval : r.toBaseRule.validate c = r.validate c := rfl
  rw [MaxDrawdownRule.validate, computeDrawdown_zero r hc] at hval
  have hblock := (BaseRule.stops_ok_iff hval).mp hstops
  have hpos := (percentLimit_block_iff.mp hblock).1
  simp at hpos

/-- The position rule is left with its fixed limit and no open lots. -/
theorem maxPositionSize_stops_iff (r : MaxPositionSizeRule) (hrisk : b.risk o.accountId = none) :
    r.toBaseRule.Stops strict (orderContext w b o now) ↔ r.maxLots < o.volume := by
  have hlots : positionLots w b o.accountId = 0 := by simp [positionLots, hrisk]
  have hmax : r.effectiveMax b o.accountId = r.maxLots := by
    unfold MaxPositionSizeRule.effectiveMax
    cases r.scaling with
    | fixed => rfl
    | per10kBalance => simp [accountBalance, hrisk, MaxPositionSizeRule.effectiveMaxAt]
  rw [MaxPositionSizeRule.stops_orderContext_iff, hlots, hmax, abs_zero, zero_add]

theorem stops_iff_stopsAtZero (r : Rule) (hrisk : b.risk o.accountId = none) :
    r.toBaseRule.Stops strict (orderContext w b o now) ↔
      r.StopsAtZero strict o (orderContext w b o now) := by
  cases r with
  | dailyLoss r => exact iff_of_false (dailyLoss_passes r (zeros_of_no_risk hrisk)) id
  | maxDrawdown r => exact iff_of_false (maxDrawdown_passes r (zeros_of_no_risk hrisk)) id
  | maxPositionSize r => exact maxPositionSize_stops_iff r hrisk
  | other r => exact Iff.rfl

/-- Neither way of sending an order sends it. -/
structure NotSent (w : Wiring) (b : Books) (o : Order) (now : ℚ) : Prop where
  sendOrder : ∀ sent, TdSandboxed.sendOrder w b now o ≠ .ok sent
  sendOrderAndWait : ∀ zmq i, ¬Sends w { books := b, zmq } i o now

theorem notSent_iff : NotSent w b o now ↔
    ∃ r ∈ w.validator.ruleEngine.rules,
      r.Stops w.validator.ruleEngine.strictMode (orderContext w b o now) := by
  constructor
  · intro h
    by_contra hnone
    exact h.sendOrderAndWait {} 0 (sends_iff.mpr (not_isBlocked_iff.mpr hnone))
  · intro hstop
    constructor
    · intro sent hsent
      exact not_isBlocked_iff.mp (sendOrder_ok_iff.mp ⟨sent, hsent⟩) hstop
    · intro zmq i hsends
      exact not_isBlocked_iff.mp (sends_iff.mp hsends) hstop

/-- **The exact condition.** An account without a risk state is kept from
sending an order, either way of sending it, if and only if the order is
larger than the limit of a position rule or another rule stops it on the
zeros. -/
theorem fail_safe_iff {rules : List Rule} {id : String}
    (hw : w.validator.ruleEngine = .init id (rules.map Rule.toBaseRule) strict)
    (hrisk : b.risk o.accountId = none) :
    NotSent w b o now ↔ ∃ r ∈ rules, r.StopsAtZero strict o (orderContext w b o now) := by
  rw [notSent_iff, hw]
  constructor
  · rintro ⟨br, hbr, hstops⟩
    obtain ⟨r, hr, rfl⟩ := List.mem_map.mp (RuleEngine.mem_init_rules.mp hbr)
    exact ⟨r, hr, (stops_iff_stopsAtZero r hrisk).mp hstops⟩
  · rintro ⟨r, hr, hstops⟩
    exact ⟨r.toBaseRule, RuleEngine.mem_init_rules.mpr (List.mem_map_of_mem hr),
      (stops_iff_stopsAtZero r hrisk).mpr hstops⟩

/-! ## One lot without a risk state -/

/-- An adapter whose validator runs a list of rules. -/
def checkedBy (rules : List Rule) : Wiring :=
  { validator := { ruleEngine := .init "ftmo-001" (rules.map Rule.toBaseRule) } }

/-- A lot is over the limit of half a lot, risk state or not. -/
theorem fail_safe_half_lot :
    NotSent (checkedBy [.maxPositionSize { maxLots := 1 / 2 }]) {} orderA 0 :=
  (fail_safe_iff rfl rfl).mpr ⟨_, List.mem_singleton.mpr rfl, by
    show (1 / 2 : ℚ) < 1
    norm_num⟩

/-- With a daily loss limit and a drawdown limit the lot is sent. -/
theorem no_risk_state_sends :
    ∃ rules : List Rule, (∃ r ∈ rules, r.isLimit = true) ∧
      ({} : Books).risk orderA.accountId = none ∧
      (∃ sent, sendOrder (checkedBy rules) {} 0 orderA = .ok sent) ∧
      Sends (checkedBy rules) {} 0 orderA 0 := by
  refine ⟨[.dailyLoss {}, .maxDrawdown {}], ⟨.dailyLoss {}, by simp, rfl⟩, rfl, ?_⟩
  have hpass : ((checkedBy [.dailyLoss {}, .maxDrawdown {}]).validator.validateOrder 0 orderA
      (buildAccountState (checkedBy [.dailyLoss {}, .maxDrawdown {}]) {} orderA)).isBlocked =
        false := by
    decide +kernel
  exact ⟨sendOrder_ok_iff.mpr hpass, sends_iff.mpr hpass⟩

end TdSandboxed
