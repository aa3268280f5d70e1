/-
TdSandboxed.Orders.ExecutionService — the execution of a signal, one await
at a time (`orders/execution_service.py`, `OrderExecutionService`).

A call creates an order, submits it, waits for its result, updates the
position tracker and waits for the audit row. Calls run concurrently over
one tracker, so the position a CLOSE was created for may be gone when its
fill arrives.

The blanket handler moves the order to ERROR, which is itself a transition
and can fail: from FILLED there is none, and then it is the text of that
failure that propagates.

* `reported` is history: the net volume the broker reported as filled. It
  may report a fill whose result the caller no longer waits for.
* The trade records, the fire-and-forget database writes, the log lines
  and the times are left out: nothing the calls decide depends on them.
-/
import TdSandboxed.Lib.TaskSystem
import TdSandboxed.Orders.Order

namespace TdSandboxed

/-- The arguments of `execute_signal`. -/
structure SignalRequest where
  signalType : SignalType
  symbol : String
  accountId : String
  volume : ℚ
  price : ℚ
  sl : Option ℚ := none
  tp : Option ℚ := none
  deriving DecidableEq

/-- What a call can raise. -/
inductive ExecutionError
  | noPosition (text : String)
  | duplicateOrder (text : String)
  | timeout
  | cancelled
  | exception (text : String)
  deriving DecidableEq

structure ExecutionService where
  positions : PositionTracker := {}
  pendingOrderIds : List String := []
  reported : String × String → ℚ := fun _ => 0

/-- Where a call is suspended. -/
inductive ExecutionPhase
  | created
  /-- `send_order_and_wait` -/
  | sending (order : InternalOrder)
  /-- `log_trade_executed_sync` or `log_position_closed_sync` -/
  | auditing (order : InternalOrder)
  /-- The order, if one was created, what the call raised, if anything, and
  the exception it was raised for. -/
  | finished (order : Option InternalOrder) (raised original : Option ExecutionError)
  deriving DecidableEq

structure ExecutionCall where
  request : SignalRequest
  phase : ExecutionPhase := .created
  deriving DecidableEq

/-- `executed` is the volume the broker reports for an order that did not
come back as filled. -/
inductive ExecutionEvent
  | start (orderId : String)
  | reply (r : OrderResult) (executed : ℚ)
  | timeout (executed : ℚ)
  | fail (text : String) (executed : ℚ)
  | audited
  | auditFail (text : String)
  | cancel (executed : ℚ)
  deriving DecidableEq

namespace ExecutionService

/-- `_create_order` -/
def createOrder (s : ExecutionService) (q : SignalRequest) (orderId : String) :
    Except ExecutionError InternalOrder :=
  let order (action : OrderSide) (volume : ℚ) : InternalOrder :=
    { accountId := q.accountId, symbol := q.symbol, action, volume, price := q.price, sl := q.sl
      tp := q.tp, orderId, signalType := q.signalType }
  match q.signalType with
  | .close =>
    match s.positions.positions (q.accountId, q.symbol) with
    | none => .error (.noPosition s!"No position to close for {q.accountId}/{q.symbol}")
    | some p =>
      let action := match p.side with | .buy => OrderSide.sell | .sell => .buy
      .ok (order action (if q.volume = 0 then p.quantity else q.volume))
  | .buy => .ok (order .buy q.volume)
  | .sell | .none => .ok (order .sell q.volume)

/-- `_handle_entry_fill`: whether an audit row is awaited. -/
def handleEntryFill (audit : Bool) (s : ExecutionService) (o : InternalOrder) :
    ExecutionService × Except String Bool :=
  match s.positions.openPosition o with
  | .error x => (s, .error x)
  | .ok positions => ({ s with positions }, .ok audit)

/-- `_handle_close_fill` -/
def handleCloseFill (audit : Bool) (s : ExecutionService) (o : InternalOrder) :
    ExecutionService × Except String Bool :=
  match s.positions.closePosition o.key with
  | (_, none) => (s, .ok false)
  | (positions, some _) => ({ s with positions }, .ok audit)

/-- `_handle_result` -/
def handleResult (audit : Bool) (s : ExecutionService) (o : InternalOrder) (r : OrderResult) :
    ExecutionService × InternalOrder × Except String Bool :=
  if r.isFilled then
    match o.transitionTo .filled with
    | .error x => (s, o, .error x)
    | .ok o =>
      let o := { o with fillPrice := r.fillPrice, filledQuantity := o.volume }
      let (s, next) := if o.isCloseOrder then s.handleCloseFill audit o else s.handleEntryFill audit o
      (s, o, next)
  else if r.isRejected then
    match o.transitionTo .rejected with
    | .error x => (s, o, .error x)
    | .ok o => (s, { o with rejectionReason := r.error }, .ok false)
  else (s, o, .ok false)

/-- The volume of an order that a result reports as filled. -/
def reportedVolume (o : InternalOrder) (r : OrderResult) (executed : ℚ) : ℚ :=
  if r.isFilled then o.volume else if r.isRejected then 0 else executed

def report (s : ExecutionService) (o : InternalOrder) (volume : ℚ) : ExecutionService :=
  { s with
    reported := Function.update s.reported o.key (s.reported o.key + o.action.sign * volume) }

/-- The `finally` block. -/
def discard (s : ExecutionService) (o : InternalOrder) : ExecutionService :=
  { s with pendingOrderIds := s.pendingOrderIds.filter (· ≠ o.orderId) }

end ExecutionService

namespace ExecutionCall

def goto (c : ExecutionCall) (p : ExecutionPhase) : ExecutionCall := { c with phase := p }

/-- The handler of an exception, with the reason it sets. -/
def onException (c : ExecutionCall) (o : InternalOrder) (reason : String) (x : ExecutionError) :
    ExecutionCall :=
  match o.transitionTo .error with
  | .ok o => c.goto (.finished (some { o with rejectionReason := some reason }) (some x) (some x))
  | .error text => c.goto (.finished (some o) (some (.exception text)) (some x))

/-- The call up to its first await. -/
def begin (s : ExecutionService) (c : ExecutionCall) (orderId : String) :
    ExecutionService × ExecutionCall :=
  match s.createOrder c.request orderId with
  | .error x => (s, c.goto (.finished none (some x) (some x)))
  | .ok o =>
    if o.orderId ∈ s.pendingOrderIds then
      let x := ExecutionError.duplicateOrder s!"Order {o.orderId} already pending"
      (s, c.goto (.finished (some o) (some x) (some x)))
    else
      match o.transitionTo .submitted with
      | .error text => (s, c.onException o text (.exception text))
      | .ok o =>
        match o.zmqOrder with
        | .error text => (s, c.onException o text (.exception text))
        | .ok _ =>
          ({ s with pendingOrderIds := o.orderId :: s.pendingOrderIds }, c.goto (.sending o))

/-- After the result was handled. -/
def resume (s : ExecutionService) (c : ExecutionCall) (o : InternalOrder) :
    Except String Bool → ExecutionService × ExecutionCall
  | .error text => (s.discard o, c.onException o text (.exception text))
  | .ok true => (s, c.goto (.auditing o))
  | .ok false => (s.discard o, c.goto (.finished (some o) none none))

/-- One step of a call. -/
def step (audit : Bool) (s : ExecutionService) (_i : ℕ) (c : ExecutionCall) (e : ExecutionEvent) :
    Option (ExecutionService × ExecutionCall) :=
  match c.phase, e with
  | .created, .start orderId => some (c.begin s orderId)
  | .created, .cancel _ => some (s, c.goto (.finished none (some .cancelled) (some .cancelled)))
  | .sending o, .reply r executed =>
    let (s, o', next) := (s.report o (ExecutionService.reportedVolume o r executed)).handleResult audit o r
    some (c.resume s o' next)
  | .sending o, .timeout executed =>
    some ((s.report o executed).discard o, c.onException o "Order timeout" .timeout)
  | .sending o, .fail text executed =>
    some ((s.report o executed).discard o, c.onException o text (.exception text))
  -- `CancelledError` is no `Exception`: only the `finally` block runs
  | .sending o, .cancel executed =>
    some ((s.report o executed).discard o,
      c.goto (.finished (some o) (some .cancelled) (some .cancelled)))
  | .auditing o, .audited => some (s.discard o, c.goto (.finished (some o) none none))
  | .auditing o, .auditFail text => some (s.discard o, c.onException o text (.exception text))
  | .auditing o, .cancel _ =>
    some (s.discard o, c.goto (.finished (some o) (some .cancelled) (some .cancelled)))
  | _, _ => none

end ExecutionCall

open Lib

/-- Any number of `execute_signal` calls on one service. -/
def executionSystem (audit : Bool) :
    TaskSystem ExecutionService SignalRequest ExecutionCall ExecutionEvent Empty where
  init _ request := { request }
  task := ExecutionCall.step audit
  env _ e := nomatch e

abbrev ExecutionState := TaskSystem.State ExecutionService ExecutionCall
abbrev ExecutionSystemEvent := TaskSystem.Event SignalRequest ExecutionEvent Empty

end TdSandboxed
