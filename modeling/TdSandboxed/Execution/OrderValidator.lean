/-
TdSandboxed.Execution.OrderValidator — the validation context and the
pre-trade check (`rules/context_builder.py`, `execution/order_validator.py`).

`validate_order` never raises: the engine turns a rule's exception into a
BLOCK, and whatever else might be raised is caught and blocks too. With the
dictionaries modelled as values nothing else raises, so the four except
branches have no counterpart.

Notifications, audit entries and violations are fire-and-forget tasks of
their own and are left out, as is the evaluation time.
-/
import TdSandboxed.Rules.Engine

namespace TdSandboxed

/-- `RuleContextBuilder.build_validation_context` for an `Order` as signal.
An `Order` has a volume but no `side`, so `side` comes from the state. -/
def buildValidationContext (accountId : String) (signal : Order) (accountState : Dict)
    (now : ℚ) (customFields : Dict := []) : Dict :=
  Dict.update
    [("account_id", .str accountId),
     ("timestamp", .time now),
     ("signal", .order signal),
     ("symbol", .str signal.symbol),
     ("side", accountState.getD "side" .none),
     ("quantity", .num signal.volume),
     ("current_balance", accountState.getD "balance" (.num 0)),
     ("current_equity", accountState.getD "equity" (.num 0)),
     ("initial_balance", accountState.getD "initial_balance" (.num 0)),
     ("peak_balance", accountState.getD "peak_balance" (.num 0)),
     ("daily_pnl", accountState.getD "daily_pnl" (.num 0)),
     ("daily_pnl_percent", accountState.getD "daily_pnl_percent" (.num 0)),
     ("total_drawdown_percent", accountState.getD "total_drawdown_percent" (.num 0)),
     ("open_positions_count", accountState.getD "open_positions_count" (.num 0)),
     ("total_exposure", accountState.getD "total_exposure" (.num 0)),
     ("account_balance",
       accountState.getD "account_balance" (accountState.getD "balance" (.num 0))),
     ("requested_lots", accountState.getD "requested_lots" (.num signal.volume)),
     ("current_position_lots", accountState.getD "current_position_lots" (.num 0)),
     ("total_pnl_percent", accountState.getD "total_pnl_percent" (.num 0)),
     ("trading_days_count", accountState.getD "trading_days_count" (.num 0))]
    customFields

structure ValidationResult where
  allowed : Bool
  reason : Option String := none
  warnings : List String := []
  blockedByRule : Option String := none
  currentValue : Option ℚ := none
  thresholdValue : Option ℚ := none

def ValidationResult.isBlocked (r : ValidationResult) : Bool := !r.allowed

structure OrderValidator where
  ruleEngine : RuleEngine

namespace OrderValidator

def context (order : Order) (accountState : Dict) (now : ℚ) : Dict :=
  buildValidationContext order.accountId order accountState now

def validateOrder (v : OrderValidator) (now : ℚ) (order : Order) (accountState : Dict) :
    ValidationResult :=
  let engineResult := v.ruleEngine.validate (context order accountState now)
  if engineResult.isBlocked then
    -- the loop stopped at the blocking rule, so its result is the last one
    let blockingResult := engineResult.allResults.getLast?.map Prod.snd
    { allowed := false
      reason := engineResult.blockingReason
      blockedByRule := some ((engineResult.blockedBy.map BaseRule.name).getD "unknown")
      currentValue := blockingResult.bind RuleResult.currentValue
      thresholdValue := blockingResult.bind RuleResult.thresholdValue }
  else if engineResult.hasWarnings then
    { allowed := true, warnings := engineResult.warningMessages }
  else { allowed := true }

/-- The validator blocks an order exactly when a rule of its engine stops
it in the order's context. -/
theorem validateOrder_isBlocked_iff (v : OrderValidator) (now : ℚ) (o : Order) (st : Dict) :
    (v.validateOrder now o st).isBlocked ↔
      ∃ r ∈ v.ruleEngine.rules, r.Stops v.ruleEngine.strictMode (context o st now) := by
  rw [← RuleEngine.validate_isBlocked_iff v.ruleEngine (context o st now) false]
  unfold validateOrder ValidationResult.isBlocked
  dsimp only
  split
  · rename_i h
    simp [h]
  · rename_i h
    split <;> simp [h]

end OrderValidator

end TdSandboxed
