/-
TdSandboxed.Adapters.ZmqAdapter — futures waiting for order results
(`adapters/zmq_adapter.py`).

`_pending_orders` maps an order id to a future. A future belongs to the
call of `send_order_and_wait` that created it, so it is named by that
call's index. Registering an id that is already there replaces the entry
and leaves the earlier future with nobody to resolve it.

* `orderResult` is the `order_result:` branch of `receive_ticks`: the
  entry is popped, and the result is dropped when there is none or its
  future is already done.
* `timeOut` is the `except asyncio.TimeoutError` path: `wait_for` cancels
  the future and the entry is popped.
* `cancelWait` is a cancellation while waiting: the future is cancelled
  and the entry stays.
-/
import Mathlib.Logic.Function.Basic
import TdSandboxed.Adapters.ZmqModels

namespace TdSandboxed

inductive FutureState
  | pending
  | done (r : OrderResult)
  | cancelled
  deriving DecidableEq

structure ZmqAdapter where
  pendingOrders : String → Option ℕ := fun _ => none
  futures : ℕ → Option FutureState := fun _ => none

namespace ZmqAdapter

def register (z : ZmqAdapter) (orderId : String) (i : ℕ) : ZmqAdapter :=
  { pendingOrders := Function.update z.pendingOrders orderId (some i)
    futures := Function.update z.futures i (some .pending) }

def pop (z : ZmqAdapter) (orderId : String) : ZmqAdapter :=
  { z with pendingOrders := Function.update z.pendingOrders orderId none }

/-- `future.set_result` unless it is already done. -/
def resolve (z : ZmqAdapter) (i : ℕ) (r : OrderResult) : ZmqAdapter :=
  if z.futures i = some .pending then
    { z with futures := Function.update z.futures i (some (.done r)) }
  else z

def orderResult (z : ZmqAdapter) (r : OrderResult) : ZmqAdapter :=
  match z.pendingOrders r.orderId with
  | some i => (z.pop r.orderId).resolve i r
  | none => z

def cancelWait (z : ZmqAdapter) (i : ℕ) : ZmqAdapter :=
  if z.futures i = some .pending then
    { z with futures := Function.update z.futures i (some .cancelled) }
  else z

def timeOut (z : ZmqAdapter) (orderId : String) (i : ℕ) : ZmqAdapter :=
  (z.cancelWait i).pop orderId

theorem futures_register (z : ZmqAdapter) (orderId : String) (i j : ℕ) :
    (z.register orderId i).futures j = if j = i then some .pending else z.futures j := by
  simp [register, Function.update_apply]

theorem pendingOrders_register (z : ZmqAdapter) (orderId : String) (i : ℕ) (id : String) :
    (z.register orderId i).pendingOrders id =
      if id = orderId then some i else z.pendingOrders id := by
  simp [register, Function.update_apply]

/-- A result arrives at no future but the one its order id is mapped to. -/
theorem futures_orderResult (z : ZmqAdapter) (r : OrderResult) (j : ℕ) :
    (z.orderResult r).futures j =
      if z.pendingOrders r.orderId = some j ∧ z.futures j = some .pending then some (.done r)
      else z.futures j := by
  unfold orderResult
  cases hp : z.pendingOrders r.orderId with
  | none => simp
  | some i =>
    simp only [resolve, pop, Option.some.injEq]
    by_cases hji : j = i
    · subst hji
      by_cases hf : z.futures j = some .pending <;> simp [hf]
    · have hij : i ≠ j := fun h => hji h.symm
      by_cases hf : z.futures i = some .pending <;> simp [hf, hji, hij]

@[simp] theorem pendingOrders_resolve (z : ZmqAdapter) (i : ℕ) (r : OrderResult) :
    (z.resolve i r).pendingOrders = z.pendingOrders := by
  unfold resolve
  split <;> rfl

@[simp] theorem pendingOrders_cancelWait (z : ZmqAdapter) (i : ℕ) :
    (z.cancelWait i).pendingOrders = z.pendingOrders := by
  unfold cancelWait
  split <;> rfl

theorem pendingOrders_pop (z : ZmqAdapter) (orderId id : String) :
    (z.pop orderId).pendingOrders id = if id = orderId then none else z.pendingOrders id := by
  simp only [pop, Function.update_apply]

theorem pendingOrders_orderResult (z : ZmqAdapter) (r : OrderResult) (id : String) :
    (z.orderResult r).pendingOrders id = if id = r.orderId then none else z.pendingOrders id := by
  unfold orderResult
  cases hp : z.pendingOrders r.orderId with
  | none =>
    by_cases hid : id = r.orderId
    · simp [hid, hp]
    · simp [hid]
  | some i => rw [pendingOrders_resolve, pendingOrders_pop]

theorem futures_cancelWait (z : ZmqAdapter) (i j : ℕ) :
    (z.cancelWait i).futures j =
      if j = i ∧ z.futures j = some .pending then some .cancelled else z.futures j := by
  unfold cancelWait
  by_cases hji : j = i
  · subst hji
    by_cases hf : z.futures j = some .pending <;> simp [hf]
  · split <;> simp [hji]

end ZmqAdapter

end TdSandboxed
