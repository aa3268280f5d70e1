/-
TdSandboxed.Adapters.MT5ConnectionManager — one connection for each account
(`adapters/mt5_connection_manager.py`).

Any number of `send_order` calls over one manager. The surroundings are the
rest of it: connections that are started and stopped, tick receivers, and
the reconnection tasks.

* `_pending_orders[a]` is a reference. `start_connection` and
  `_recover_pending_orders` put a new set there, and a send that is in
  flight keeps the set it took.
* `adapter.connect` and `adapter.disconnect` suspend nowhere: a reconnection
  is one step once its sleep is over.
* `stop_connection` is three steps, one for each stretch between its awaits.
  They may come at any time here.
* `PendingOrders.starts` and `SendCall.since` are history: how often
  `start_connection` made the account's set, and that count when the order
  was sent.

The heartbeat times, the lengths of the sleeps and the port check are left
out.
-/
import Mathlib.Data.Finset.Erase
import Mathlib.Data.Finset.Insert
import Mathlib.Logic.Function.Basic
import TdSandboxed.Adapters.ZmqModels
import TdSandboxed.Lib.TaskSystem

namespace TdSandboxed

open Lib

/-! ## State -/

structure ConnectionHealth where
  connected : Bool := false
  lastError : Option String := none
  reconnectAttempts : ℕ := 0
  deriving DecidableEq

/-- `_pending_orders`. The sets made for an account are numbered, and
`current` is the number of the one the manager holds. -/
structure PendingOrders where
  current : String → Option ℕ := fun _ => none
  sets : String → ℕ → Finset String := fun _ _ => ∅
  made : String → ℕ := fun _ => 0
  starts : String → ℕ := fun _ => 0

namespace PendingOrders

variable (p : PendingOrders)

/-- `self._pending_orders[account_id] = set()` -/
def new (a : String) : PendingOrders :=
  { p with
    current := Function.update p.current a (some (p.made a))
    sets := Function.update p.sets a (Function.update (p.sets a) (p.made a) ∅)
    made := Function.update p.made a (p.made a + 1) }

/-- What `start_connection` does to it. -/
def start (a : String) : PendingOrders :=
  { p.new a with starts := Function.update p.starts a (p.starts a + 1) }

/-- `self._pending_orders.get(account_id, set())` -/
def get (a : String) : Finset String :=
  match p.current a with
  | some n => p.sets a n
  | none => ∅

/-- Set number `n` of an account becomes `ids`. -/
def put (a : String) (n : ℕ) (ids : Finset String) : PendingOrders :=
  { p with sets := Function.update p.sets a (Function.update (p.sets a) n ids) }

end PendingOrders

structure MT5ConnectionManager where
  /-- The accounts of the account manager. -/
  accounts : String → Bool
  running : Bool := false
  /-- `_connections`: the adapters, numbered. -/
  connections : String → Option ℕ := fun _ => none
  health : String → Option ConnectionHealth := fun _ => none
  pendingOrders : PendingOrders := {}
  /-- `_reconnection_tasks`, and the tasks that are asleep. -/
  reconnectionTasks : String → Option ℕ := fun _ => none
  asleep : ℕ → Option String := fun _ => none
  /-- `_tick_receivers`, and the receivers that run, named by their adapter. -/
  tickReceivers : String → Option ℕ := fun _ => none
  receiving : ℕ → Option String := fun _ => none
  /-- The next adapter or task. -/
  fresh : ℕ := 0

namespace MT5ConnectionManager

variable (m : MT5ConnectionManager)

/-- `self._health.get(account_id, ConnectionHealth())` -/
def getHealth (a : String) : ConnectionHealth := (m.health a).getD {}

def updateHealth (a : String) (connected : Bool) (error : Option String) : MT5ConnectionManager :=
  let h := m.getHealth a
  { m with health := Function.update m.health a (some
      { connected, lastError := error,
        reconnectAttempts := if connected then 0 else h.reconnectAttempts + 1 }) }

def scheduleReconnection (a : String) : MT5ConnectionManager :=
  if m.running then
    let asleep := match m.reconnectionTasks a with
      | some n => Function.update m.asleep n none
      | none => m.asleep
    { m with
      asleep := Function.update asleep m.fresh (some a)
      reconnectionTasks := Function.update m.reconnectionTasks a (some m.fresh)
      fresh := m.fresh + 1 }
  else m

/-- `start_connection` of a known account without a connection. `connect`
is what `adapter.connect` raises. -/
def connect (a : String) (connect : Option String) : MT5ConnectionManager :=
  let m := { m with
    health := Function.update m.health a (some {})
    pendingOrders := m.pendingOrders.start a }
  match connect with
  | none =>
    let m := { m with connections := Function.update m.connections a (some m.fresh) }
    let m := m.updateHealth a true none
    { m with
      receiving := Function.update m.receiving m.fresh (some a)
      tickReceivers := Function.update m.tickReceivers a (some m.fresh)
      fresh := m.fresh + 1 }
  | some e => (m.updateHealth a false (some e)).scheduleReconnection a

/-- `start_connection`. It raises for an unknown account. -/
def startConnection (a : String) (connect : Option String) : MT5ConnectionManager :=
  if (m.connections a).isSome then m
  else if m.accounts a then m.connect a connect
  else m

def recoverPendingOrders (a : String) : MT5ConnectionManager :=
  if m.pendingOrders.get a = ∅ then m
  else { m with pendingOrders := m.pendingOrders.new a }

/-- The old connection and the reconnection task are removed. -/
def cleanUp (a : String) : MT5ConnectionManager :=
  { m with
    connections := Function.update m.connections a none
    reconnectionTasks := Function.update m.reconnectionTasks a none }

/-- `_reconnect_with_backoff` after its sleep. -/
def reconnect (a : String) (connect : Option String) : MT5ConnectionManager :=
  let m := m.cleanUp a
  if m.accounts a then
    let m := m.startConnection a connect
    if (m.getHealth a).connected then m.recoverPendingOrders a else m
  else m

end MT5ConnectionManager

/-- A step of the manager that is not a send. -/
inductive ManagerEvent
  /-- An account is added to the account manager or removed from it. -/
  | setAccount (a : String) (known : Bool)
  /-- The first line of `start_all_connections` and `stop_all_connections`. -/
  | setRunning (on : Bool)
  | startConnection (a : String) (connect : Option String)
  /-- `stop_connection` up to its first await. -/
  | stopReceiver (a : String)
  /-- Up to its second await. -/
  | stopReconnection (a : String)
  /-- The rest of it. -/
  | stopConnection (a : String)
  /-- Receiver `n` gets a tick. -/
  | tick (n : ℕ)
  /-- `receive_ticks` of receiver `n` raises. -/
  | receiverFails (n : ℕ) (error : String)
  /-- The sleep of reconnection task `n` is over. -/
  | wake (n : ℕ) (connect : Option String)

namespace MT5ConnectionManager

def manage (m : MT5ConnectionManager) : ManagerEvent → Option MT5ConnectionManager
  | .setAccount a known => some { m with accounts := Function.update m.accounts a known }
  | .setRunning on => some { m with running := on }
  | .startConnection a connect => some (m.startConnection a connect)
  | .stopReceiver a =>
    (m.tickReceivers a).map fun n => { m with receiving := Function.update m.receiving n none }
  | .stopReconnection a =>
    let m := { m with tickReceivers := Function.update m.tickReceivers a none }
    match m.reconnectionTasks a with
    | some n => some { m with asleep := Function.update m.asleep n none }
    | none => some m
  | .stopConnection a => some ((m.cleanUp a).updateHealth a false none)
  | .tick n => (m.receiving n).map fun a => m.updateHealth a true none
  | .receiverFails n error =>
    (m.receiving n).map fun a =>
      let m := { m with receiving := Function.update m.receiving n none }
      (m.updateHealth a false (some error)).scheduleReconnection a
  | .wake n connect =>
    (m.asleep n).map fun a =>
      let m := { m with asleep := Function.update m.asleep n none }
      m.reconnect a connect

end MT5ConnectionManager

/-! ## Sends -/

inductive SendOutcome
  | returned (r : OrderResult)
  /-- A timeout, a failure of the adapter or a cancellation. -/
  | failed (repr : String)
  | notConnected
  | duplicate
  deriving DecidableEq

inductive SendPhase
  /-- Created, not started. -/
  | created
  /-- `await adapter.send_order_and_wait(order, timeout)`, with the number
  of the set it took. -/
  | inFlight (set : ℕ)
  | finished (out : SendOutcome)
  deriving DecidableEq

/-- A call of `send_order`. -/
structure SendCall where
  order : Order
  phase : SendPhase := .created
  since : ℕ := 0

inductive SendEvent
  | start
  | ends (r : OrderResult)
  /-- The adapter's call raises, or the caller is cancelled. -/
  | fails (repr : String)
  deriving DecidableEq

namespace SendCall

def InFlight (c : SendCall) : Prop := ∃ n, c.phase = .inFlight n

/-- `send_order` up to its await. -/
def start (m : MT5ConnectionManager) (c : SendCall) : MT5ConnectionManager × SendCall :=
  let a := c.order.accountId
  if (m.connections a).isNone then (m, { c with phase := .finished .notConnected })
  else
    -- `setdefault`
    let p := if (m.pendingOrders.current a).isNone then m.pendingOrders.new a else m.pendingOrders
    let n := (p.current a).getD 0
    if c.order.orderId ∈ p.sets a n then
      ({ m with pendingOrders := p }, { c with phase := .finished .duplicate })
    else
      ({ m with pendingOrders := p.put a n (insert c.order.orderId (p.sets a n)) },
       { c with phase := .inFlight n, since := p.starts a })

/-- The `finally`: the id is discarded from the set the call took. -/
def release (m : MT5ConnectionManager) (c : SendCall) (n : ℕ) : MT5ConnectionManager :=
  let a := c.order.accountId
  let p := m.pendingOrders
  { m with pendingOrders := p.put a n ((p.sets a n).erase c.order.orderId) }

def step (m : MT5ConnectionManager) (_ : ℕ) (c : SendCall) (e : SendEvent) :
    Option (MT5ConnectionManager × SendCall) :=
  match c.phase, e with
  | .created, .start => some (c.start m)
  | .created, .fails x => some (m, { c with phase := .finished (.failed x) })
  | .inFlight n, .ends r => some (c.release m n, { c with phase := .finished (.returned r) })
  | .inFlight n, .fails x => some (c.release m n, { c with phase := .finished (.failed x) })
  | _, _ => none

end SendCall

/-- The sends over one manager. -/
def sendSystem : TaskSystem MT5ConnectionManager Order SendCall SendEvent ManagerEvent where
  init := fun _ order => { order }
  task := SendCall.step
  env := MT5ConnectionManager.manage

abbrev SendState := TaskSystem.State MT5ConnectionManager SendCall
abbrev SendSystemEvent := TaskSystem.Event Order SendEvent ManagerEvent

/-- A manager nothing was done with, for some accounts. -/
def noSends (accounts : String → Bool) : SendState := { shared := { accounts }, tasks := [] }

end TdSandboxed
