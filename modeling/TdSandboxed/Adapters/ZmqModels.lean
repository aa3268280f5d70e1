/-
TdSandboxed.Adapters.ZmqModels — the wire models shared by the engine and
mt5-bridge (`adapters/zmq_models.py`).

* `Order` is a pydantic model whose fields are checked when it is built.
  Here each check is a field of the structure, so an order with an empty
  id or a non-positive volume cannot be written down.
* `OrderResult` and `MT5Position` are plain dataclasses: any status may
  come with or without a fill price.
* Python floats and Decimals are exact rationals throughout.

The constant `type` field and the timestamps and slippage of a result
are left out: no modelled function reads them.
-/
import Mathlib.Data.Rat.Defs
import Mathlib.Tactic.NormNum

namespace TdSandboxed

inductive OrderSide
  | buy
  | sell
  deriving DecidableEq, Repr

def OrderSide.value : OrderSide → String
  | .buy => "BUY"
  | .sell => "SELL"

def OrderSide.sign : OrderSide → ℚ
  | .buy => 1
  | .sell => -1

inductive OrderStatus
  | filled
  | partiallyFilled
  | rejected
  | error
  deriving DecidableEq, Repr

def OrderStatus.value : OrderStatus → String
  | .filled => "filled"
  | .partiallyFilled => "partially_filled"
  | .rejected => "rejected"
  | .error => "error"

theorem no_price_pos : ∀ p ∈ (none : Option ℚ), 0 < p := by simp

/-- An order command to mt5-bridge, with the checks its fields passed. -/
structure Order where
  accountId : String
  action : OrderSide
  symbol : String
  volume : ℚ
  price : ℚ
  sl : Option ℚ := none
  tp : Option ℚ := none
  orderId : String
  accountId_ne : accountId ≠ "" := by decide
  symbol_ne : symbol ≠ "" := by decide
  volume_pos : 0 < volume := by norm_num
  price_pos : 0 < price := by norm_num
  sl_pos : ∀ p ∈ sl, 0 < p := by exact no_price_pos
  tp_pos : ∀ p ∈ tp, 0 < p := by exact no_price_pos
  orderId_ne : orderId ≠ "" := by decide
  deriving DecidableEq

/-- The volume, negative for a sell. -/
def Order.signed (o : Order) : ℚ := o.action.sign * o.volume

theorem ftmo_ne : "ftmo-001" ≠ "" := by decide

theorem gold_ne : "XAUUSD" ≠ "" := by decide

/-- One lot of gold for the account `ftmo-001`. -/
def goldOrder (orderId : String) (side : OrderSide := .buy) (h : orderId ≠ "" := by decide) : Order :=
  { accountId := "ftmo-001", action := side, symbol := "XAUUSD", volume := 1, price := 1,
    orderId, accountId_ne := ftmo_ne, symbol_ne := gold_ne, orderId_ne := h }

def orderA : Order := goldOrder "a"

def orderB : Order := goldOrder "b"

/-- What mt5-bridge reports back for an order. -/
structure OrderResult where
  orderId : String
  status : OrderStatus
  fillPrice : Option ℚ := none
  error : Option String := none
  deriving DecidableEq

/-- Only FILLED counts: a partial fill is not `is_filled`. -/
def OrderResult.isFilled (r : OrderResult) : Bool := r.status = .filled

def OrderResult.isRejected (r : OrderResult) : Bool := r.status = .rejected ∨ r.status = .error

/-- The statuses under which the venue has executed volume. -/
def OrderResult.reportsFill (r : OrderResult) : Bool :=
  r.status = .filled ∨ r.status = .partiallyFilled

theorem OrderResult.isFilled.reportsFill {r : OrderResult} (h : r.isFilled) : r.reportsFill := by
  simp only [isFilled, decide_eq_true_eq] at h
  simp [OrderResult.reportsFill, h]

/-- A position as MT5 reports it. `side` is free text on the wire. -/
structure MT5Position where
  ticket : ℤ
  symbol : String
  side : String
  volume : ℚ
  entryPrice : ℚ
  currentPrice : ℚ
  deriving DecidableEq

end TdSandboxed
