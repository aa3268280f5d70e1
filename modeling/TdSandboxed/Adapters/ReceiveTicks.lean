/-
TdSandboxed.Adapters.ReceiveTicks — the receive loop of the adapter
(`adapters/zmq_adapter.py`, `ZmqAdapter.receive_ticks`,
`_handle_account_info`, `_handle_positions_result`, and the message classes
of `adapters/zmq_models.py`).

A message is a list of byte strings. It is decoded, routed by the prefix of
its topic and parsed by the handler of that topic; each handler catches the
exceptions it expects, and the loop catches those of ZeroMQ. Whatever else
is raised ends the generator.

* The fields of a tick and of an order result are not checked for type when
  they are read, so they are JSON values here.
* What the registry or the metrics service raises for a message is part of
  the input, and so is what the other tasks of the adapter do to the
  waiting futures between two messages.
* The receive timeout, the reconnection and the log are left out.
-/
import Mathlib.Logic.Function.Basic
import TdSandboxed.Adapters.Json
import TdSandboxed.Adapters.ZmqModels
import TdSandboxed.Lib.Ends

namespace TdSandboxed

/-! ## Futures -/

inductive Future (α : Type)
  | pending
  | done (a : α)
  | cancelled

/-- A dict from ids to futures. A future is named by a number. -/
structure PendingFutures (α : Type) where
  waiting : String → Option ℕ := fun _ => none
  futures : ℕ → Option (Future α) := fun _ => none

namespace PendingFutures

variable {α : Type}

/-- `pop(id, None)`, then `set_result` unless the future is done. -/
def complete (p : PendingFutures α) (id : String) (a : α) : PendingFutures α :=
  match p.waiting id with
  | none => p
  | some i =>
    { waiting := Function.update p.waiting id none
      futures :=
        match p.futures i with
        | some .pending => Function.update p.futures i (some (.done a))
        | _ => p.futures }

/-- The ids are texts: another value that a dict can be asked for is not
among them, and a container cannot be looked up. -/
def completeAt (p : PendingFutures α) (id : Json) (a : α) : Except ReceiveError (PendingFutures α) :=
  match id with
  | .str id => .ok (p.complete id a)
  | _ => if id.hashable then .ok p else .error .typeError

/-- The future that waits for an id gets what arrives for it. -/
theorem futures_complete (p : PendingFutures α) {id : String} {i : ℕ} (a : α)
    (hw : p.waiting id = some i) (hp : p.futures i = some .pending) :
    (p.complete id a).futures i = some (.done a) := by
  simp [complete, hw, hp]

end PendingFutures

/-! ## Messages -/

structure RawTick where
  accountId : Json
  symbol : Json
  bid : Json
  ask : Json
  timestamp : Json

/-- An order result with a status that exists. -/
structure RawOrderResult where
  orderId : Json
  status : OrderStatus
  fillPrice : Json
  slippage : Json
  timestamp : Json
  error : Json

structure RawPosition where
  ticket : ℤ
  symbol : String
  side : String
  volume : PyFloat
  entryPrice : PyFloat
  entryTime : String
  currentPrice : PyFloat
  profit : PyFloat
  swap : PyFloat
  commission : PyFloat
  deriving DecidableEq

/-- `raise ValueError` unless the condition holds. -/
def require (c : Bool) : Except ReceiveError Unit := if c then .ok () else .error .valueError

/-- `Tick(...)` -/
def RawTick.parse (data : Json) : Except ReceiveError RawTick := do
  let accountId ← data.getItem "account_id"
  let symbol ← data.getItem "symbol"
  let bid ← data.getItem "bid"
  let ask ← data.getItem "ask"
  let timestamp ← data.getItem "timestamp"
  require accountId.truthy
  require symbol.truthy
  let b ← bid.number
  require (!b.leZero)
  let k ← ask.number
  require (!k.leZero)
  require (!k.lt b)
  require timestamp.truthy
  return { accountId, symbol, bid, ask, timestamp }

/-- `OrderStatus(value)`: no value of another type is one. -/
def OrderStatus.ofJson? : Json → Option OrderStatus
  | .str s => [OrderStatus.filled, .partiallyFilled, .rejected, .error].find? (·.value = s)
  | _ => none

/-- `OrderResult(...)` -/
def RawOrderResult.parse (data : Json) : Except ReceiveError RawOrderResult := do
  let orderId ← data.getItem "order_id"
  let value ← data.getItem "status"
  let status ← (OrderStatus.ofJson? value).elim (.error .valueError) .ok
  let fillPrice ← data.get "fill_price" .null
  let slippage ← data.get "slippage" .null
  let timestamp ← data.get "timestamp" (.str "")
  let error ← data.get "error" .null
  return { orderId, status, fillPrice, slippage, timestamp, error }

/-- `MT5Position.from_dict` -/
def RawPosition.fromDict (lib : PyLib) (data : Json) : Except ReceiveError RawPosition := do
  let ticket ← data.getItem "ticket" >>= lib.intOf
  let symbol ← data.getItem "symbol"
  let side ← data.getItem "side"
  let volume ← data.getItem "volume" >>= lib.decimalOf
  let entryPrice ← data.getItem "entry_price" >>= lib.decimalOf
  let entryTime ← data.getItem "entry_time"
  let currentPrice ← data.getItem "current_price" >>= lib.decimalOf
  let profit ← data.getItem "profit" >>= lib.decimalOf
  let swap ← data.getItem "swap" >>= lib.decimalOf
  let commission ← data.getItem "commission" >>= lib.decimalOf
  return { ticket, symbol := lib.strOf symbol, side := lib.strOf side, volume, entryPrice
           entryTime := lib.strOf entryTime, currentPrice, profit, swap, commission }

/-! ## The loop -/

/-- The adapter as the loop sees it. -/
structure Receiver where
  orders : PendingFutures RawOrderResult := {}
  queries : PendingFutures (List RawPosition) := {}
  /-- The ticks that were yielded. -/
  ticks : List RawTick := []

structure ReceiverConfig where
  lib : PyLib
  /-- A `PnLTrackerRegistry` is registered. -/
  pnlRegistry : Bool
  /-- An `AccountMetricsService` is registered. -/
  metricsService : Bool

/-- Awaiting a callback that raises, or does not. -/
def callbackEnds (callback : Option ReceiveError) : Except ReceiveError Unit :=
  callback.elim (.ok ()) .error

namespace Receiver

open Lib

/-- `except (json.JSONDecodeError, KeyError)` -/
def caughtForTick (e : ReceiveError) : Bool := e = .jsonDecodeError ∨ e = .keyError

/-- `except (json.JSONDecodeError, KeyError, ValueError)` -/
def caughtElsewhere (e : ReceiveError) : Bool := e.isValueError ∨ e = .keyError

/-- `except zmq.Again`, `except zmq.ZMQError` -/
def caughtByLoop (e : ReceiveError) : Bool := e = .zmqAgain ∨ e = .zmqError

def handleTick (c : ReceiverConfig) (s : Receiver) (payload : String) (callback : Option ReceiveError) :
    Except ReceiveError Receiver :=
  catching caughtForTick s do
    let data ← c.lib.loads payload
    let tick ← RawTick.parse data
    if c.pnlRegistry then
      let _ ← c.lib.decimalOf tick.bid
      let _ ← c.lib.decimalOf tick.ask
      callbackEnds callback
      return { s with ticks := s.ticks ++ [tick] }
    else return { s with ticks := s.ticks ++ [tick] }

def handleOrderResult (c : ReceiverConfig) (s : Receiver) (payload : String) :
    Except ReceiveError Receiver :=
  catching caughtElsewhere s do
    let data ← c.lib.loads payload
    let result ← RawOrderResult.parse data
    let orders ← s.orders.completeAt result.orderId result
    return { s with orders }

/-- `_handle_account_info` -/
def handleAccountInfo (c : ReceiverConfig) (s : Receiver) (payload : String)
    (callback : Option ReceiveError) : Except ReceiveError Receiver :=
  if c.metricsService then
    catching caughtElsewhere s do
      let data ← c.lib.loads payload
      let _ ← data.getItem "account_id"
      let _ ← data.getItem "balance" >>= c.lib.decimalOf
      let _ ← data.getItem "equity" >>= c.lib.decimalOf
      callbackEnds callback
      return s
  else .ok s

/-- `_handle_positions_result` -/
def handlePositionsResult (c : ReceiverConfig) (s : Receiver) (payload : String) :
    Except ReceiveError Receiver :=
  catching caughtElsewhere s do
    let data ← c.lib.loads payload
    let requestId ← data.getItem "request_id"
    let items ← data.get "positions" (.arr []) >>= Json.items
    let positions ← items.mapM (RawPosition.fromDict c.lib)
    let queries ← s.queries.completeAt requestId positions
    return { s with queries }

/-- `str.startswith` -/
def startsWith (text start : String) : Bool := start.toList.isPrefixOf text.toList

/-- The routing by topic. -/
def route (c : ReceiverConfig) (s : Receiver) (topic payload : String)
    (callback : Option ReceiveError) : Except ReceiveError Receiver :=
  if startsWith topic "tick:" then handleTick c s payload callback
  else if startsWith topic "order_result:" then handleOrderResult c s payload
  else if startsWith topic "account_info:" then handleAccountInfo c s payload callback
  else if startsWith topic "positions_result:" then handlePositionsResult c s payload
  else .ok s

/-- One turn of the loop. -/
def receiveOne (c : ReceiverConfig) (s : Receiver) (parts : List ByteArray)
    (callback : Option ReceiveError) : Except ReceiveError Receiver :=
  catching caughtByLoop s <|
    match parts with
    | topic :: payload :: _ => do
      let topic ← decodeUtf8 topic
      let payload ← decodeUtf8 payload
      route c s topic payload callback
    | _ => .ok s

end Receiver

inductive ReceiveEvent
  | message (parts : List ByteArray) (callback : Option ReceiveError)
  /-- The other tasks leave the futures so. -/
  | elsewhere (orders : PendingFutures RawOrderResult) (queries : PendingFutures (List RawPosition))

namespace Receiver

/-- `receive_ticks`: the receiver after some events, and the exception that
ended the loop, if one did. -/
def receiveTicks (c : ReceiverConfig) : Receiver → List ReceiveEvent → Receiver × Option ReceiveError
  | s, [] => (s, none)
  | s, .elsewhere orders queries :: es => receiveTicks c { s with orders, queries } es
  | s, .message parts callback :: es =>
    match receiveOne c s parts callback with
    | .ok s => receiveTicks c s es
    | .error e => (s, some e)

end Receiver

end TdSandboxed
