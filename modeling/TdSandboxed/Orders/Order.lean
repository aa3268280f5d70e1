/-
TdSandboxed.Orders.Order — orders inside the engine and the positions they
open (`orders/order.py`, `orders/position_tracker.py`, `SignalType` of
`orders/signal.py`).

An `InternalOrder` is created PENDING and moves along the valid
transitions only; a terminal state has none. The tracker knows one position
for each account and symbol, whole: it is opened by a fill and removed by a
close, never changed. Times and slippage are left out.
-/
import Mathlib.Logic.Function.Basic
import TdSandboxed.Adapters.ZmqModels

namespace TdSandboxed

inductive SignalType
  | buy
  | sell
  | close
  | none
  deriving DecidableEq, Repr

inductive OrderState
  | pending
  | submitted
  | filled
  | partiallyFilled
  | rejected
  | cancelled
  | error
  deriving DecidableEq, Repr

namespace OrderState

def value : OrderState → String
  | .pending => "pending"
  | .submitted => "submitted"
  | .filled => "filled"
  | .partiallyFilled => "partially_filled"
  | .rejected => "rejected"
  | .cancelled => "cancelled"
  | .error => "error"

def isTerminal (s : OrderState) : Bool := s ∈ [filled, rejected, cancelled, error]

def validTransitions : OrderState → List OrderState
  | .pending => [submitted, cancelled, error]
  | .submitted => [filled, partiallyFilled, rejected, cancelled, error]
  | .partiallyFilled => [filled, cancelled, error]
  | .filled | .rejected | .cancelled | .error => []

def canTransitionTo (s target : OrderState) : Bool := target ∈ s.validTransitions

end OrderState

structure InternalOrder where
  accountId : String
  symbol : String
  action : OrderSide
  volume : ℚ
  price : ℚ
  sl : Option ℚ := none
  tp : Option ℚ := none
  orderId : String
  signalType : SignalType
  state : OrderState := .pending
  fillPrice : Option ℚ := none
  rejectionReason : Option String := none
  filledQuantity : ℚ := 0
  deriving DecidableEq

namespace InternalOrder

def isCloseOrder (o : InternalOrder) : Bool := o.signalType = .close

/-- What the tracker files the order's position under. -/
def key (o : InternalOrder) : String × String := (o.accountId, o.symbol)

/-- The volume, negative for a sell. -/
def signed (o : InternalOrder) : ℚ := o.action.sign * o.volume

/-- `transition_to` -/
def transitionTo (o : InternalOrder) (target : OrderState) : Except String InternalOrder :=
  if o.state.canTransitionTo target then .ok { o with state := target }
  else .error s!"Invalid state transition: {o.state.value} -> {target.value}"

/-- The order on the wire, or the `ValidationError` of its fields. -/
def zmqOrder (o : InternalOrder) : Except String Order :=
  if h : o.accountId ≠ "" ∧ o.symbol ≠ "" ∧ 0 < o.volume ∧ 0 < o.price ∧
      (∀ p ∈ o.sl, 0 < p) ∧ (∀ p ∈ o.tp, 0 < p) ∧ o.orderId ≠ "" then
    .ok
      { accountId := o.accountId, action := o.action, symbol := o.symbol, volume := o.volume
        price := o.price, sl := o.sl, tp := o.tp, orderId := o.orderId
        accountId_ne := h.1, symbol_ne := h.2.1, volume_pos := h.2.2.1, price_pos := h.2.2.2.1
        sl_pos := h.2.2.2.2.1, tp_pos := h.2.2.2.2.2.1, orderId_ne := h.2.2.2.2.2.2 }
  else .error "validation error for Order"

/-- The price of a fill: a fill price of zero counts as missing. -/
def entryPrice (o : InternalOrder) : ℚ :=
  match o.fillPrice with
  | some p => if p = 0 then o.price else p
  | none => o.price

end InternalOrder

/-! ## Positions -/

structure TrackedPosition where
  accountId : String
  symbol : String
  side : OrderSide
  quantity : ℚ
  entryPrice : ℚ
  orderId : String
  deriving DecidableEq

/-- `PositionTracker`: a position for an account and a symbol. -/
structure PositionTracker where
  positions : String × String → Option TrackedPosition := fun _ => none

namespace PositionTracker

def openPosition (t : PositionTracker) (o : InternalOrder) : Except String PositionTracker :=
  match t.positions o.key with
  | some _ => .error (s!"Position already exists for {o.accountId}/{o.symbol}. " ++
      "Close existing position before opening new one.")
  | none => .ok
      { positions := Function.update t.positions o.key <| some
          { accountId := o.accountId, symbol := o.symbol, side := o.action, quantity := o.volume
            entryPrice := o.entryPrice, orderId := o.orderId } }

/-- `close_position`: what is left, and the position that was removed. -/
def closePosition (t : PositionTracker) (key : String × String) :
    PositionTracker × Option TrackedPosition :=
  ({ positions := Function.update t.positions key none }, t.positions key)

/-- The volume of the position under a key, negative for a short one. -/
def net (t : PositionTracker) (key : String × String) : ℚ :=
  match t.positions key with
  | some p => p.side.sign * p.quantity
  | none => 0

/-- Opening where there is nothing adds the order's volume. -/
theorem net_openPosition {t t' : PositionTracker} {o : InternalOrder}
    (h : t.openPosition o = .ok t') (key : String × String) :
    t'.net key = t.net key + if key = o.key then o.signed else 0 := by
  unfold openPosition at h
  split at h
  · cases h
  · rename_i hnone
    obtain rfl := Except.ok.inj h
    by_cases hk : key = o.key
    · subst hk
      simp [net, hnone, InternalOrder.signed]
    · simp [net, hk]

/-- Closing removes whatever is there. -/
theorem net_closePosition (t : PositionTracker) (k key : String × String) :
    (t.closePosition k).1.net key = if key = k then 0 else t.net key := by
  by_cases hk : key = k
  · subst hk
    simp [net, closePosition]
  · simp [net, closePosition, hk]

end PositionTracker

end TdSandboxed
