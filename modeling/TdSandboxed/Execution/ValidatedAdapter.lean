/-
TdSandboxed.Execution.ValidatedAdapter — validated sending, one await at a
time (`execution/validated_adapter.py`, with the parts of `ZmqAdapter`,
`ExposureReservation`, `PnLTrackerRegistry` and `PnLTracker` it awaits).

`send_order_and_wait` is a coroutine: between two awaits it runs without
interruption, and at an await any other task may run. So a call is a
record with a `Phase`, one phase for each await, and `Call.step` is what
happens when that await completes, fails or is cancelled. A Redis script
has two phases, before and after the server has executed it, because a
call that raises or is cancelled may fall on either side.

Any number of calls over one `Shared` state is a `TaskSystem`; its
surroundings are the receive loop (`orderResult`), the other writers of
the risk registry (`riskState`) and ticks.

Decisions a reader may want to check against the source:

* `start` is everything up to the first suspension: the snapshot, the rule
  check (which awaits nothing that suspends) and the synchronous head of
  `_try_reserve`.
* `except Exception` does not catch a cancellation. A failure inside
  `reserve` is swallowed, a cancellation is not.
* `Call.sent` and `Call.recorded` are history: they say that the order was
  handed to the gateway and that the tracker took its volume. No step
  reads them.
-/
import TdSandboxed.Accounts.PnLTracker
import TdSandboxed.Accounts.RiskState
import TdSandboxed.Adapters.ZmqAdapter
import TdSandboxed.Execution.ExposureReservation
import TdSandboxed.Execution.OrderValidator
import TdSandboxed.Lib.TaskSystem

namespace TdSandboxed

/-! ## State -/

/-- What the adapter is built with. -/
structure Wiring where
  validator : OrderValidator
  /-- A `PnLTrackerRegistry` is set. -/
  pnlRegistry : Bool := true
  /-- The registry was given a Redis manager. -/
  registryRedis : Bool := true
  reservation : Option ExposureReservation := none
  maxLotsProvider : Option (String → Dict → Option ℚ) := none

/-- The reservation counters in Redis, the trackers and the risk states,
by account. -/
structure Books where
  reserved : String → Option ℚ := fun _ => none
  pnl : String → Option PnLTracker := fun _ => none
  risk : String → Option RiskState := fun _ => none

structure Shared where
  books : Books := {}
  zmq : ZmqAdapter := {}

namespace Books

/-- The value of an account's reservation counter. -/
def counter (b : Books) (a : String) : ℚ := reservedLots (b.reserved a)

/-- `PnLTrackerRegistry.get_total_position_lots` -/
def lots (b : Books) (a : String) : ℚ := ((b.pnl a).map PnLTracker.lots).getD 0

def setReserved (b : Books) (a : String) (raw : Option ℚ) : Books :=
  { b with reserved := Function.update b.reserved a raw }

def setTracker (b : Books) (a : String) (t : PnLTracker) : Books :=
  { b with pnl := Function.update b.pnl a (some t) }

def setRisk (b : Books) (a : String) (rs : RiskState) : Books :=
  { b with risk := Function.update b.risk a (some rs) }

end Books

def Shared.setReserved (sh : Shared) (a : String) (raw : Option ℚ) : Shared :=
  { sh with books := sh.books.setReserved a raw }

def Shared.setTracker (sh : Shared) (a : String) (t : PnLTracker) : Shared :=
  { sh with books := sh.books.setTracker a t }

def Shared.setRisk (sh : Shared) (a : String) (rs : RiskState) : Shared :=
  { sh with books := sh.books.setRisk a rs }

/-! ## The snapshot -/

/-- `_build_account_state` without a risk state. -/
def minimalAccountState (order : Order) : Dict :=
  [("balance", .num 0), ("equity", .num 0), ("initial_balance", .num 0), ("peak_balance", .num 0),
   ("daily_pnl", .num 0), ("daily_pnl_percent", .num 0), ("total_drawdown_percent", .num 0),
   ("open_positions_count", .num 0), ("total_exposure", .num 0), ("account_balance", .num 0),
   ("requested_lots", .num order.volume), ("current_position_lots", .num 0),
   ("total_pnl_percent", .num 0), ("trading_days_count", .num 0)]

def buildAccountState (w : Wiring) (b : Books) (order : Order) : Dict :=
  match b.risk order.accountId with
  | none => minimalAccountState order
  | some rs =>
    -- position data only with a registry, and zero for an account without a tracker
    let tracker := if w.pnlRegistry then b.pnl order.accountId else none
    [("balance", .num rs.dailyStartingBalance), ("equity", .num rs.currentEquity),
     ("initial_balance", .num rs.dailyStartingBalance), ("peak_balance", .num rs.peakEquity),
     ("daily_pnl", .num rs.dailyPnl), ("daily_pnl_percent", .num rs.dailyPnlPercent),
     ("total_drawdown_percent", .num rs.totalDrawdownPercent),
     ("open_positions_count", .num ((tracker.map PnLTracker.getOpenPositionsCount).getD 0)),
     ("total_exposure", .num ((tracker.map PnLTracker.getTotalExposure).getD 0)),
     ("account_balance", .num rs.dailyStartingBalance),
     ("requested_lots", .num order.volume),
     ("current_position_lots", .num ((tracker.map PnLTracker.lots).getD 0)),
     ("total_pnl_percent", .num rs.dailyPnlPercent), ("trading_days_count", .num 1)]

/-- `account_state.get("current_position_lots", 0.0)`, which is a number in
every state built above. -/
def currentPositionLots (accountState : Dict) : ℚ :=
  match accountState.getD "current_position_lots" (.num 0) with
  | .num q => q
  | _ => 0

/-! ## Outcomes -/

structure OrderBlockedError where
  reason : String
  blockedByRule : Option String := none
  currentValue : Option ℚ := none
  thresholdValue : Option ℚ := none
  deriving DecidableEq

/-- The exceptions the callers tell apart; `other` keeps the `repr`. -/
inductive Raised
  | blocked (e : OrderBlockedError)
  | timeout
  | cancelled
  | other (repr : String)
  deriving DecidableEq

inductive Outcome
  | returned (r : OrderResult)
  | raised (x : Raised)
  deriving DecidableEq

def OrderBlockedError.ofValidation (r : ValidationResult) : OrderBlockedError :=
  { reason := pyOr r.reason "Order blocked by compliance rules"
    blockedByRule := r.blockedByRule
    currentValue := r.currentValue
    thresholdValue := r.thresholdValue }

/-- What `_try_reserve` asks the gate for. -/
structure Gate where
  maxLots : ℚ
  position : ℚ
  deriving DecidableEq

/-- The cap on what is in flight: the ceiling less the realized lots of
the snapshot. -/
def Gate.cap (g : Gate) : ℚ := g.maxLots - g.position

def OrderBlockedError.ofGate (g : Gate) (requested previous : ℚ) : OrderBlockedError :=
  { reason := s!"Atomic exposure gate rejected: requested {fmtFixed 4 requested} " ++
      s!"+ in-flight {fmtFixed 4 previous} + realized {fmtFixed 4 g.position} > max " ++
      s!"{fmtFixed 4 g.maxLots} lots"
    blockedByRule := some "atomic_exposure_reservation"
    currentValue := some (previous + g.position)
    thresholdValue := some g.maxLots }

/-! ## Calls -/

/-- Where a call of `send_order_and_wait` is suspended. `held` says that
the local `reservation` is not `None`. -/
inductive Phase
  /-- Created, not started. -/
  | created
  /-- `evalsha(reserve)` issued, the script not executed yet. -/
  | reserving (g : Gate)
  /-- `get_reserved` issued, because the cap is negative. -/
  | readingReserved (g : Gate)
  /-- The server has executed the script; its reply is on the way. -/
  | reserved (g : Gate) (res : ReservationResult)
  /-- `send_multipart` of the order. -/
  | sending (held : Bool)
  /-- `wait_for(future)`. -/
  | awaiting (held : Bool)
  /-- `get_or_create`: `get_account_balance`. -/
  | readingBalance (held : Bool) (r : OrderResult)
  /-- `update_account_equity`: the lock and the risk manager. -/
  | updatingEquity (held : Bool) (r : OrderResult) (equity : ℚ)
  /-- `update_account_equity`: `save_risk_state`. -/
  | persistingRisk (held : Bool) (r : OrderResult)
  /-- `save_account_balance`. -/
  | savingBalance (held : Bool) (r : OrderResult)
  /-- `evalsha(release)` issued, the script not executed yet. -/
  | releasing (out : Outcome)
  /-- The server has executed the release; its reply is on the way. -/
  | released (out : Outcome)
  | finished (out : Outcome)
  deriving DecidableEq

structure Call where
  order : Order
  phase : Phase := .created
  sent : Bool := false
  recorded : Bool := false
  deriving DecidableEq

inductive CallEvent
  /-- The task runs for the first time, at this time of day. -/
  | start (now : ℚ)
  /-- The server executes the issued script. -/
  | script
  /-- The await completes with nothing a later step needs. -/
  | reply
  /-- The balance stored in Redis, if any. -/
  | balance (b : Option ℚ)
  /-- The lock is taken and the stored risk state, if any, is loaded. -/
  | riskLoaded (stored : Option RiskState)
  /-- The await raises an `Exception` with this `repr`. -/
  | fail (repr : String)
  /-- `wait_for` times out. -/
  | timeout
  | cancel
  deriving DecidableEq

/-- `_try_reserve` before its first await. -/
inductive GateHead
  | skip
  | readCounter (g : Gate)
  | evalsha (g : Gate)

def gateHead (w : Wiring) (order : Order) (accountState : Dict) : GateHead :=
  match w.reservation, w.maxLotsProvider with
  | some reservation, some provider =>
    match provider order.accountId accountState with
    | none => .skip
    | some maxLots =>
      let g : Gate := { maxLots, position := currentPositionLots accountState }
      match reservation.reserveHead order.volume g.cap with
      -- "let the synchronous validator be the only line of defence for this single order"
      | .raises _ => .skip
      | .readCounter => .readCounter g
      | .evalsha => .evalsha g
  | _, _ => .skip

namespace Call

def goto (c : Call) (p : Phase) : Call := { c with phase := p }

/-- Hand the order to `ZmqAdapter.send_order_and_wait`. -/
def hand (sh : Shared) (i : ℕ) (c : Call) (held : Bool) : Shared × Call :=
  ({ sh with zmq := sh.zmq.register c.order.orderId i },
   { c with phase := .sending held, sent := true })

/-- `_release_reservation` on the way out: only a reservation that was
accepted is released. -/
def leave (c : Call) (held : Bool) (out : Outcome) : Call :=
  c.goto (if held then .releasing out else .finished out)

/-- `on_trade_executed` up to its first await, on the account's tracker. -/
def record (sh : Shared) (c : Call) (held : Bool) (r : OrderResult) (t : PnLTracker) :
    Shared × Call :=
  let t := t.record c.order r
  (sh.setTracker c.order.accountId t,
   { c with phase := .updatingEquity held r t.currentEquity, recorded := true })

/-- What follows the result: the tracker for a filled order, then the
release. -/
def wake (w : Wiring) (sh : Shared) (c : Call) (held : Bool) (r : OrderResult) : Shared × Call :=
  if w.pnlRegistry && r.isFilled then
    match sh.books.pnl c.order.accountId with
    | some t => record sh c held r t
    | none =>
      if w.registryRedis then (sh, c.goto (.readingBalance held r))
      else
        (sh, c.leave held (.raised (.other
          s!"ValueError('initial_balance required for new tracker: {c.order.accountId}')")))
  else (sh, c.leave held (.returned r))

/-- The first stretch of the call. -/
def start (w : Wiring) (sh : Shared) (i : ℕ) (c : Call) (now : ℚ) : Shared × Call :=
  let accountState := buildAccountState w sh.books c.order
  let result := w.validator.validateOrder now c.order accountState
  if result.isBlocked then (sh, c.goto (.finished (.raised (.blocked (.ofValidation result)))))
  else
    match gateHead w c.order accountState with
    | .skip => hand sh i c false
    | .readCounter g => (sh, c.goto (.readingReserved g))
    | .evalsha g => (sh, c.goto (.reserving g))

/-- One step of a call. -/
def step (w : Wiring) (sh : Shared) (i : ℕ) (c : Call) (e : CallEvent) : Option (Shared × Call) :=
  let a := c.order.accountId
  match c.phase, e with
  | .created, .start now => some (start w sh i c now)
  | .created, .cancel => some (sh, c.goto (.finished (.raised .cancelled)))
  -- the gate
  | .reserving g, .script =>
    let (res, raw) := atomicReserve (sh.books.reserved a) c.order.volume g.cap
    some (sh.setReserved a raw, c.goto (.reserved g res))
  | .readingReserved g, .script =>
    let current := sh.books.counter a
    some (sh, c.goto (.reserved g
      { accepted := false, newReserved := current, previousReserved := current }))
  | .reserved g res, .reply =>
    if res.accepted then some (hand sh i c true)
    else
      some (sh, c.goto (.finished (.raised (.blocked
        (.ofGate g c.order.volume res.previousReserved)))))
  | .reserving _, .fail _ | .readingReserved _, .fail _ | .reserved _ _, .fail _ =>
    some (hand sh i c false)
  | .reserving _, .cancel | .readingReserved _, .cancel | .reserved _ _, .cancel =>
    some (sh, c.goto (.finished (.raised .cancelled)))
  -- the gateway
  | .sending held, .reply => some (sh, c.goto (.awaiting held))
  | .sending held, .fail x => some (sh, c.leave held (.raised (.other x)))
  | .sending held, .cancel => some (sh, c.leave held (.raised .cancelled))
  | .awaiting held, .reply =>
    match sh.zmq.futures i with
    | some (.done r) => some (wake w sh c held r)
    | _ => none
  | .awaiting held, .timeout =>
    some ({ sh with zmq := sh.zmq.timeOut c.order.orderId i }, c.leave held (.raised .timeout))
  | .awaiting held, .cancel =>
    some ({ sh with zmq := sh.zmq.cancelWait i }, c.leave held (.raised .cancelled))
  -- the tracker
  | .readingBalance held r, .balance b => some (record sh c held r (.init a (b.getD 0)))
  | .updatingEquity held r equity, .riskLoaded stored =>
    let rs := match sh.books.risk a with
      | some rs => rs
      | none => stored.getD {}
    some (sh.setRisk a (rs.updateEquity equity), c.goto (.persistingRisk held r))
  | .persistingRisk held r, .reply =>
    some (sh, if w.registryRedis then c.goto (.savingBalance held r) else c.leave held (.returned r))
  | .savingBalance held r, .reply => some (sh, c.leave held (.returned r))
  | .readingBalance held _, .fail x | .updatingEquity held _ _, .fail x
  | .persistingRisk held _, .fail x | .savingBalance held _, .fail x =>
    some (sh, c.leave held (.raised (.other x)))
  | .readingBalance held _, .cancel | .updatingEquity held _ _, .cancel
  | .persistingRisk held _, .cancel | .savingBalance held _, .cancel =>
    some (sh, c.leave held (.raised .cancelled))
  -- the release; "counter may drift until TTL expires"
  | .releasing out, .script =>
    some (sh.setReserved a (atomicRelease (sh.books.reserved a) c.order.volume),
      c.goto (.released out))
  | .released out, .reply => some (sh, c.goto (.finished out))
  | .releasing out, .fail _ | .released out, .fail _ => some (sh, c.goto (.finished out))
  | .releasing _, .cancel | .released _, .cancel =>
    some (sh, c.goto (.finished (.raised .cancelled)))
  | _, _ => none

end Call

/-! ## The system -/

/-- What moves the shared state besides the calls. -/
inductive EnvEvent
  /-- The receive loop reads an order result. -/
  | orderResult (r : OrderResult)
  /-- Another writer sets an account's risk state. -/
  | riskState (a : String) (rs : RiskState)
  /-- A tick reaches an account's tracker. -/
  | tick (a : String) (symbol : String) (bid ask : ℚ)

def envStep (sh : Shared) : EnvEvent → Option Shared
  | .orderResult r => some { sh with zmq := sh.zmq.orderResult r }
  | .riskState a rs => some (sh.setRisk a rs)
  | .tick a symbol bid ask =>
    match sh.books.pnl a with
    | some t => some (sh.setTracker a (t.onTick symbol bid ask))
    | none => some sh

open Lib

/-- Any number of calls of one `ValidatedZmqAdapter`. -/
def adapterSystem (w : Wiring) : TaskSystem Shared Order Call CallEvent EnvEvent where
  init _ order := { order }
  task := Call.step w
  env := envStep

abbrev AdapterState := TaskSystem.State Shared Call
abbrev AdapterEvent := TaskSystem.Event Order CallEvent EnvEvent

/-- No call was made yet and nothing waits for a result. -/
def Idle (s : AdapterState) : Prop := s.tasks = [] ∧ s.shared.zmq = {}

/-! ## Fire and forget -/

/-- `send_order`: what reaches the gateway, or the error it raises. No
reservation, no tracker. -/
def sendOrder (w : Wiring) (b : Books) (now : ℚ) (order : Order) : Except OrderBlockedError Order :=
  let result := w.validator.validateOrder now order (buildAccountState w b order)
  if result.isBlocked then .error (.ofValidation result) else .ok order

end TdSandboxed
