/-
TdSandboxed.Execution.RuleContext — what a rule finds in an order's
context.

The context of an order passes through two dictionaries: the account state
the adapter builds and the context the validator builds from it. Each rule
reads two or three keys of the second. The lemmas here take a rule's
`validate` on that context down to the rule's own arithmetic, so that later
proofs never look at a dictionary.
-/
import TdSandboxed.Execution.ValidatedAdapter
import TdSandboxed.Rules.Types

namespace TdSandboxed

/-- The context an order is checked in. -/
def orderContext (w : Wiring) (b : Books) (o : Order) (now : ℚ) : Dict :=
  OrderValidator.context o (buildAccountState w b o) now

/-- The open lots the adapter states for an account: none without a risk
state, and none without a registry. -/
def positionLots (w : Wiring) (b : Books) (a : String) : ℚ :=
  if (b.risk a).isSome && w.pnlRegistry then b.lots a else 0

/-- The balance the adapter states for an account. -/
def accountBalance (b : Books) (a : String) : ℚ :=
  ((b.risk a).map RiskState.dailyStartingBalance).getD 0

/-- The position limit of a rule for an account. -/
def MaxPositionSizeRule.effectiveMax (r : MaxPositionSizeRule) (b : Books) (a : String) : ℚ :=
  match r.scaling with
  | .fixed => r.maxLots
  | .per10kBalance => r.effectiveMaxAt (accountBalance b a)

variable {w : Wiring} {b : Books} {o : Order} {now : ℚ}

theorem buildAccountState_positionLots :
    (buildAccountState w b o).getD "current_position_lots" (.num 0) =
      .num (positionLots w b o.accountId) := by
  unfold buildAccountState positionLots
  cases hr : b.risk o.accountId with
  | none => simp [minimalAccountState]
  | some rs => cases w.pnlRegistry <;> simp [Books.lots]

theorem buildAccountState_balance (default : Value) :
    (buildAccountState w b o).getD "account_balance" default =
      .num (accountBalance b o.accountId) := by
  unfold buildAccountState accountBalance
  cases hr : b.risk o.accountId <;> simp [minimalAccountState]

theorem buildAccountState_requestedLots (default : Value) :
    (buildAccountState w b o).getD "requested_lots" default = .num o.volume := by
  unfold buildAccountState
  cases hr : b.risk o.accountId <;> simp [minimalAccountState]

/-- The lots an order asks for are its volume. -/
theorem orderContext_requestedLots :
    (orderContext w b o now).getD "requested_lots" (.num 0) = .num o.volume := by
  simp [orderContext, OrderValidator.context, buildValidationContext, Dict.update,
    buildAccountState_requestedLots]

/-- The open lots an order is validated against. -/
theorem currentPositionLots_eq :
    currentPositionLots (buildAccountState w b o) = positionLots w b o.accountId := by
  rw [currentPositionLots, buildAccountState_positionLots]

/-- **The position rule in an order's context**: the order's volume on top
of the account's open lots, against the limit at the account's balance. -/
theorem MaxPositionSizeRule.validate_orderContext (r : MaxPositionSizeRule) :
    r.validate (orderContext w b o now) =
      .ok (r.decide o.volume (positionLots w b o.accountId) (r.effectiveMax b o.accountId)) := by
  have hcur : (orderContext w b o now).getD "current_position_lots" (.num 0) =
      .num (positionLots w b o.accountId) := by
    simp [orderContext, OrderValidator.context, buildValidationContext, Dict.update,
      buildAccountState_positionLots]
  have hbal : (orderContext w b o now).getD "account_balance" (.num 0) =
      .num (accountBalance b o.accountId) := by
    simp [orderContext, OrderValidator.context, buildValidationContext, Dict.update,
      buildAccountState_balance]
  have hmax : r.calculateEffectiveMax (orderContext w b o now) = .ok (r.effectiveMax b o.accountId) := by
    unfold calculateEffectiveMax effectiveMax
    cases r.scaling with
    | fixed => rfl
    | per10kBalance =>
      rw [hbal]
      rfl
  rw [validate, orderContext_requestedLots, hcur, hmax]
  rfl

/-- The position rule stops an order exactly when the total is over the
limit. -/
theorem MaxPositionSizeRule.stops_orderContext_iff (r : MaxPositionSizeRule) (strict : Bool) :
    r.toBaseRule.Stops strict (orderContext w b o now) ↔
      r.effectiveMax b o.accountId < |positionLots w b o.accountId| + o.volume := by
  rw [BaseRule.stops_ok_iff (r.validate_orderContext), decide_block_iff]
  simp [o.volume_pos]

end TdSandboxed
