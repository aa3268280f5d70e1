/-
TdSandboxed.Engine.OrderTranslator — from a strategy's order to the wire
(`engine/clients/order_translator.py`).

The fields read of a Nautilus order are a structure. Its client order id
and symbol are Nautilus identifiers, which are never empty, and the
account id comes from an `AccountConfig`, which requires a non-empty one;
so the internal order's own checks pass and `to_internal_order` raises
`UnsupportedOrderError` only, with the text kept here.

A Nautilus `Quantity` is converted by `float` and copied as the volume.
-/
import TdSandboxed.Rules.BaseRule

namespace TdSandboxed

inductive NautilusOrderSide
  | noOrderSide
  | buy
  | sell
  deriving DecidableEq

def NautilusOrderSide.repr : NautilusOrderSide → String
  | .noOrderSide => "<OrderSide.NO_ORDER_SIDE: 0>"
  | .buy => "<OrderSide.BUY: 1>"
  | .sell => "<OrderSide.SELL: 2>"

inductive OrderType
  | market
  | limit
  | stopMarket
  | stopLimit
  | marketToLimit
  | marketIfTouched
  | limitIfTouched
  | trailingStopMarket
  | trailingStopLimit
  deriving DecidableEq

def OrderType.name : OrderType → String
  | .market => "MARKET"
  | .limit => "LIMIT"
  | .stopMarket => "STOP_MARKET"
  | .stopLimit => "STOP_LIMIT"
  | .marketToLimit => "MARKET_TO_LIMIT"
  | .marketIfTouched => "MARKET_IF_TOUCHED"
  | .limitIfTouched => "LIMIT_IF_TOUCHED"
  | .trailingStopMarket => "TRAILING_STOP_MARKET"
  | .trailingStopLimit => "TRAILING_STOP_LIMIT"

/-- A Nautilus order, as far as the live path reads it. -/
structure NautilusOrder where
  strategyId : String
  symbol : String
  clientOrderId : String
  side : NautilusOrderSide
  orderType : OrderType := .market
  quantity : ℚ
  price : Option ℚ := none
  triggerPrice : Option ℚ := none
  symbol_ne : symbol ≠ "" := by decide
  clientOrderId_ne : clientOrderId ≠ "" := by decide

/-- An account id as `AccountConfig` admits it. -/
structure AccountId where
  id : String
  id_ne : id ≠ "" := by decide

theorem AccountId.id_eq_iff {a b : AccountId} : a.id = b.id ↔ a = b := by
  cases a
  cases b
  simp

instance : DecidableEq AccountId := fun a b =>
  decidable_of_iff (a.id = b.id) AccountId.id_eq_iff

def nautilusToInternalSide : NautilusOrderSide → Option OrderSide
  | .buy => some .buy
  | .sell => some .sell
  | .noOrderSide => none

/-- The price, else the trigger price, else the sentinel 1: a MARKET order
has neither, and the wire model requires a positive one. -/
def extractRequestedPrice (n : NautilusOrder) : ℚ :=
  match n.price.filter (0 < ·), n.triggerPrice.filter (0 < ·) with
  | some p, _ => p
  | none, some t => t
  | none, none => 1

theorem extractRequestedPrice_pos (n : NautilusOrder) : 0 < extractRequestedPrice n := by
  unfold extractRequestedPrice
  split
  case h_1 hp => simpa using (Option.filter_eq_some_iff.mp hp).2
  case h_2 ht => simpa using (Option.filter_eq_some_iff.mp ht).2
  case h_3 => exact one_pos

def toInternalOrder (n : NautilusOrder) (account : AccountId) : Except String Order :=
  if n.orderType ≠ .market then
    .error (s!"Live path supports MARKET orders only — got {n.orderType.name}; " ++
      "LIMIT/STOP support is deferred to Epic 11+ (Review 3 P1).")
  else
    match nautilusToInternalSide n.side with
    | none => .error s!"Unsupported Nautilus order side: {n.side.repr}"
    | some side =>
      if h : 0 < n.quantity then
        .ok
          { orderId := n.clientOrderId, accountId := account.id, action := side, symbol := n.symbol
            volume := n.quantity, price := extractRequestedPrice n
            accountId_ne := account.id_ne, symbol_ne := n.symbol_ne, volume_pos := h
            price_pos := extractRequestedPrice_pos n, orderId_ne := n.clientOrderId_ne }
      else .error s!"Nautilus order has non-positive quantity: {pyFloat n.quantity}"

/-- What a translated order takes over from the Nautilus order, and what
the Nautilus order must have been. -/
theorem toInternalOrder_ok {n : NautilusOrder} {account : AccountId} {o : Order}
    (h : toInternalOrder n account = .ok o) :
    n.orderType = .market ∧ nautilusToInternalSide n.side = some o.action ∧
      o.orderId = n.clientOrderId ∧ o.accountId = account.id ∧ o.symbol = n.symbol ∧
      o.volume = n.quantity := by
  unfold toInternalOrder at h
  split at h
  · contradiction
  · rename_i hmarket
    split at h
    · contradiction
    · rename_i side hside
      split at h
      · obtain rfl := Except.ok.inj h
        exact ⟨by simpa using hmarket, hside, rfl, rfl, rfl, rfl⟩
      · contradiction

/-- A market order with a side and a positive quantity translates. -/
theorem exists_toInternalOrder {n : NautilusOrder} (account : AccountId) {side : OrderSide}
    (hmarket : n.orderType = .market) (hside : nautilusToInternalSide n.side = some side)
    (hq : 0 < n.quantity) : ∃ o, toInternalOrder n account = .ok o := by
  simp [toInternalOrder, hmarket, hside, hq]

end TdSandboxed
