/-
TdSandboxed.Strategies.Sizing — lots, engine units and the order a strategy
builds (`instruments/contract_specs.py`,
`strategies/risk_based_position_sizer.py`,
`strategies/mixins/risk_sized_mixin.py`, `strategies/base_strategy.py`).

The sizer answers in MT5 lots. `size_from_risk` and `get_position_size`
convert to engine units and the order is built from `make_qty` of these.
`make_qty` is Nautilus code and a parameter; what is known of it is
`MakesQty`.

Which spec belongs to a symbol is a lookup that raises on unknown symbols;
everything here takes the spec it found. The guards of the strategy (flat,
regime) decide whether an order is built at all and are left out, as are
the stop and target legs of a bracket.
-/
import TdSandboxed.Engine.OrderTranslator

namespace TdSandboxed

/-! ## Contract specifications -/

structure ContractSpec where
  symbol : String
  contractSize : ℚ
  pipSize : ℚ
  baseCurrency : String
  quoteCurrency : String
  deriving DecidableEq

namespace ContractSpec

def lotsToUnits (spec : ContractSpec) (lots : ℚ) : ℚ := lots * spec.contractSize

def unitsToLots (spec : ContractSpec) (units : ℚ) : ℚ := units / spec.contractSize

/-- The account currency is USD by contract. -/
def quoteToAccountRate (spec : ContractSpec) (price : ℚ) (accountCurrency : String := "USD") :
    Except PyException ℚ :=
  if price ≤ 0 then
    .error (.valueError (s!"{spec.symbol}: price must be positive to derive a quote→" ++
      s!"{accountCurrency} rate, got {pyFloat price}"))
  else if spec.quoteCurrency = accountCurrency then .ok 1
  else if spec.baseCurrency = accountCurrency then .ok (1 / price)
  else
    .error (.valueError (s!"{spec.symbol}: cannot convert {spec.quoteCurrency} to " ++
      s!"{accountCurrency} without an external rate (cross pair); wire a rate source before " ++
      "trading this symbol"))

def fxMajor (symbol base quote : String) (pipSize : ℚ := 1 / 10000) : ContractSpec :=
  { symbol, contractSize := 100000, pipSize, baseCurrency := base, quoteCurrency := quote }

/-- The registered specs. -/
def specs : List ContractSpec :=
  [{ symbol := "XAUUSD", contractSize := 100, pipSize := 1 / 100, baseCurrency := "XAU",
     quoteCurrency := "USD" },
   fxMajor "EURUSD" "EUR" "USD", fxMajor "GBPUSD" "GBP" "USD", fxMajor "AUDUSD" "AUD" "USD",
   fxMajor "USDJPY" "USD" "JPY" (1 / 100)]

end ContractSpec

/-! ## The risk-based sizer -/

structure RiskBasedSizerConfig where
  riskPercent : ℚ := 1
  maxLotSize : ℚ := 10
  minLotSize : ℚ := 1 / 100
  lotStep : ℚ := 1 / 100
  riskPercent_nonneg : 0 ≤ riskPercent := by norm_num
  riskPercent_le : riskPercent ≤ 100 := by norm_num
  maxLotSize_pos : 0 < maxLotSize := by norm_num
  minLotSize_pos : 0 < minLotSize := by norm_num
  lotStep_pos : 0 < lotStep := by norm_num

/-- `to_integral_value(rounding=ROUND_DOWN)`: towards zero. -/
def roundTowardsZero (q : ℚ) : ℤ := if 0 ≤ q then ⌊q⌋ else ⌈q⌉

namespace RiskBasedSizerConfig

/-- Floor to the step; nothing below the minimum, the maximum above it. -/
def clamp (c : RiskBasedSizerConfig) (lotSize : ℚ) : ℚ :=
  let floored := roundTowardsZero (lotSize / c.lotStep) * c.lotStep
  if floored < c.minLotSize then 0 else min floored c.maxLotSize

def riskAmount (c : RiskBasedSizerConfig) (accountBalance : ℚ) : ℚ :=
  accountBalance * (c.riskPercent / 100)

def calculateLotSize (c : RiskBasedSizerConfig) (accountBalance entryPrice stopPrice contractSize
    quoteToAccountRate : ℚ) : ℚ :=
  if accountBalance ≤ 0 ∨ contractSize ≤ 0 ∨ quoteToAccountRate ≤ 0 then 0
  else
    let stopDistance := |entryPrice - stopPrice|
    if stopDistance ≤ 0 then 0
    else
      let lossPerLot := stopDistance * contractSize * quoteToAccountRate
      c.clamp (c.riskAmount accountBalance / lossPerLot)

end RiskBasedSizerConfig

/-- The loss of one lot at the stop, in the account currency. -/
def lossPerLot (entryPrice stopPrice contractSize quoteToAccountRate : ℚ) : ℚ :=
  |entryPrice - stopPrice| * contractSize * quoteToAccountRate

/-! ## Quantities -/

def sizeFromRisk (c : RiskBasedSizerConfig) (spec : ContractSpec)
    (accountBalance entryPrice stopPrice : ℚ) : Except PyException ℚ := do
  let rate ← spec.quoteToAccountRate entryPrice
  let lots := c.calculateLotSize accountBalance entryPrice stopPrice spec.contractSize rate
  return spec.lotsToUnits lots

/-- `get_position_size`: the configured `trade_size`, which is in lots. -/
def getPositionSize (spec : ContractSpec) (tradeSize : ℚ) : ℚ := spec.lotsToUnits tradeSize

/-- `make_qty` leaves multiples of the instrument's size increment alone. -/
structure MakesQty (makeQty : ℚ → ℚ) (sizeIncrement : ℚ) : Prop where
  id_on_grid : ∀ k : ℤ, makeQty (k * sizeIncrement) = k * sizeIncrement

/-! ## Orders -/

/-- What the order factory puts on every order of a strategy. -/
structure OrderIds where
  strategyId : String
  symbol : String
  clientOrderId : String
  symbol_ne : symbol ≠ "" := by decide
  clientOrderId_ne : clientOrderId ≠ "" := by decide

def OrderSide.toNautilus : OrderSide → NautilusOrderSide
  | .buy => .buy
  | .sell => .sell

/-- `order_factory.market`. -/
def OrderIds.market (ids : OrderIds) (side : OrderSide) (quantity : ℚ) : NautilusOrder :=
  { strategyId := ids.strategyId, symbol := ids.symbol, clientOrderId := ids.clientOrderId
    side := side.toNautilus, quantity
    symbol_ne := ids.symbol_ne, clientOrderId_ne := ids.clientOrderId_ne }

/-- The entry leg of `_submit_bracket_order`; no order for a quantity that
is not positive. -/
def submitBracketEntry (makeQty : ℚ → ℚ) (ids : OrderIds) (side : OrderSide) (quantity : ℚ) :
    Option NautilusOrder :=
  if quantity ≤ 0 then none else some (ids.market side (makeQty quantity))

/-- `_go_long` and `_go_short`. -/
def goOrder (makeQty : ℚ → ℚ) (ids : OrderIds) (side : OrderSide) (spec : ContractSpec)
    (tradeSize : ℚ) : NautilusOrder :=
  ids.market side (makeQty (getPositionSize spec tradeSize))

end TdSandboxed
