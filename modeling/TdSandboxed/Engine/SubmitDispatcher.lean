/-
TdSandboxed.Engine.SubmitDispatcher — one SubmitOrder command
(`engine/clients/submit_dispatcher.py`, `ZmqExecutionClient._submit_order`).

`dispatch_submit_order` awaits only `send_order_and_wait`. `report` is
what it emits for each way that call can end, and `Dispatched` puts the
two together: the translated order runs as one call of the validated
adapter, with the receive loop, ticks and other writers around it.

Whether `Price.from_str` takes the text of a fill price is decided by
Nautilus and is a parameter, `priceAccepted`. When it does not, the
exception leaves the dispatcher after `generate_order_submitted`, as a
cancellation of the call leaves it before any event.

Timestamps, the random trade id and the constant fields of a fill event
are left out.
-/
import TdSandboxed.Engine.OrderTranslator
import TdSandboxed.Execution.ValidatedAdapterSteps

namespace TdSandboxed

open Lib Lib.TaskSystem

/-! ## Events -/

inductive EngineEvent
  | submitted
  | filled (venueOrderId : String) (side : OrderSide) (lastQty : ℚ) (lastPx : String)
  | rejected (reason : String)
  | denied (reason : String)
  deriving DecidableEq

namespace EngineEvent

def isTerminal : EngineEvent → Bool
  | .submitted => false
  | .filled .. | .rejected _ | .denied _ => true

def isFill : EngineEvent → Bool
  | .filled .. => true
  | .submitted | .rejected _ | .denied _ => false

/-- Rejected or denied. -/
def isRefusal : EngineEvent → Bool
  | .rejected _ | .denied _ => true
  | .submitted | .filled .. => false

end EngineEvent

/-! ## From the outcome to the events -/

section
variable (priceAccepted : String → Bool)

def emitFill (n : NautilusOrder) (side : OrderSide) (r : OrderResult) (fillPrice : ℚ) :
    List EngineEvent :=
  let lastPx := fmtFixed 5 fillPrice
  if priceAccepted lastPx then [.filled r.orderId side n.quantity lastPx] else []

def report (n : NautilusOrder) (o : Order) : Outcome → List EngineEvent
  | .raised (.blocked e) => [.denied (pyOr (some e.reason) "Blocked by compliance rules")]
  | .raised .timeout => [.rejected "MT5 send timeout"]
  | .raised (.other repr) => [.rejected s!"send failed: {repr}"]
  -- no `Exception`, so no handler sees it
  | .raised .cancelled => []
  | .returned r =>
    .submitted ::
      if r.isFilled then
        match r.fillPrice with
        | none => [.rejected "MT5 returned FILLED with no fill price"]
        | some fillPrice => emitFill priceAccepted n o.action r fillPrice
      else [.rejected (pyOr r.error s!"MT5 status {r.status.value}")]

/-- A fill price is there and Nautilus accepts it. -/
def OrderResult.fillPriceAccepted (r : OrderResult) : Bool :=
  r.fillPrice.any fun p => priceAccepted (fmtFixed 5 p)

/-! ## The whole dispatch -/

/-- The future a new call makes is nobody else's. -/
structure ZmqAdapter.FreshFuture (z : ZmqAdapter) (i : ℕ) : Prop where
  futures : z.futures i = none
  pendingOrders : ∀ id, z.pendingOrders id ≠ some i

/-- One dispatch of `n` on an account's client, as call number `i`: the
steps taken, the state after them and the events emitted. -/
inductive Dispatched (w : Wiring) (account : AccountId) (n : NautilusOrder) (i : ℕ) (sh₀ : Shared) :
    List (CallEvent ⊕ EnvEvent) → Shared → List EngineEvent → Prop
  | denied {reason : String} :
      toInternalOrder n account = .error reason →
      Dispatched w account n i sh₀ [] sh₀ [.denied reason]
  | ended {o : Order} {es : List (CallEvent ⊕ EnvEvent)} {sh : Shared} {c : Call} {out : Outcome} :
      toInternalOrder n account = .ok o →
      sh₀.zmq.FreshFuture i →
      Run ((adapterSystem w).solo i) (sh₀, { order := o }) es (sh, c) →
      c.phase = .finished out →
      Dispatched w account n i sh₀ es sh (report priceAccepted n o out)

end

end TdSandboxed
