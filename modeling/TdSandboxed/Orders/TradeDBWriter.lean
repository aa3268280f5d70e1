/-
TdSandboxed.Orders.TradeDBWriter — the batched writer of trade records
(`orders/trade_db_writer.py`).

A record goes into the buffer. A flush takes the whole buffer and inserts it
in one transaction; when the insert raises, it puts the records back. Four
kinds of tasks flush: the timer, a task of its own when the buffer is full,
`update_trade_exit` before its UPDATE, and `stop` at its end.

* A record is named by its trade id.
* The lock of the buffer is only held where nothing is awaited, so each of
  its sections is part of one step.
* A task can be cancelled wherever it awaits, an insert can raise before its
  commit or after it, and an UPDATE can raise.
-/
import Mathlib.Data.List.Basic

namespace TdSandboxed

inductive TradeTaskKind (α : Type)
  /-- `_flush_timer_loop` -/
  | timer
  /-- The flush of a full buffer. -/
  | sized
  /-- `update_trade_exit` -/
  | exit (tradeId : α)
  | stop
  deriving DecidableEq

/-- Where a task is suspended. -/
inductive TradeTaskPhase (α : Type)
  | created
  /-- The timer sleeps. -/
  | sleeping
  /-- `stop` has cancelled the timer and awaits it. -/
  | awaiting (timer : Option ℕ)
  /-- `_batch_insert`, before or after the commit. -/
  | flushing (entries : List α) (committed : Bool)
  /-- The UPDATE is not executed yet. -/
  | updating
  /-- The UPDATE is executed and not committed; whether it found the row. -/
  | executed (found : Bool)
  /-- `stop` disposes of the engine. -/
  | disposing
  | returned
  /-- It ended with an exception or a cancellation. -/
  | failed
  deriving DecidableEq

structure TradeTask (α : Type) where
  kind : TradeTaskKind α
  /-- What had been accepted when an exit was called, and when a stop
  returned. -/
  seen : List α := []
  phase : TradeTaskPhase α := .created
  deriving DecidableEq

structure TradeDBWriter (α : Type) where
  buffer : List α := []
  running : Bool := false
  flushTask : Option ℕ := none
  tasks : List (TradeTask α) := []
  /-- The trade ids of the rows. -/
  table : List α := []
  /-- The rows that an UPDATE closed. -/
  closed : List α := []
  /-- The entries that were put into the buffer, in order. -/
  accepted : List α := []

inductive TradeTaskEvent
  /-- A new task runs up to its first await. -/
  | enter
  | wake
  /-- The timer ended. -/
  | proceed
  | commit
  /-- The insert, or the disposal of the engine, returns. -/
  | finish
  /-- The insert, the UPDATE or the disposal raises. -/
  | fail
  | execute
  | apply
  | cancel
  deriving DecidableEq

inductive TradeEvent (α : Type)
  | start
  | write (tradeId : α)
  | exit (tradeId : α)
  | stop
  | task (i : ℕ) (e : TradeTaskEvent)

namespace TradeDBWriter

variable {α : Type}

def setTask (s : TradeDBWriter α) (i : ℕ) (t : TradeTask α) : TradeDBWriter α :=
  { s with tasks := s.tasks.set i t }

/-- A task after `_flush_buffer` has returned; the head of the timer's
loop. -/
def afterFlush (s : TradeDBWriter α) (t : TradeTask α) : TradeTask α :=
  match t.kind with
  | .timer => { t with phase := if s.running then .sleeping else .returned }
  | .sized => { t with phase := .returned }
  | .exit _ => { t with phase := .updating }
  | .stop => { t with phase := .disposing }

/-- `_flush_buffer`, up to its insert. -/
def flushBuffer (s : TradeDBWriter α) (i : ℕ) (t : TradeTask α) : TradeDBWriter α :=
  if s.buffer = [] then s.setTask i (s.afterFlush t)
  else { s with buffer := [] }.setTask i { t with phase := .flushing s.buffer false }

/-- A task after a cancellation: the timer breaks its loop. -/
def cancelled (t : TradeTask α) : TradeTask α :=
  match t.kind with
  | .timer => { t with phase := .returned }
  | _ => { t with phase := .failed }

/-- The timer of a `stop` was awaited; a cancellation of the await is
caught. -/
def timerAwaited (s : TradeDBWriter α) (timer : Option ℕ) : TradeDBWriter α :=
  if timer.isSome then { s with flushTask := none } else s

def timerEnded (s : TradeDBWriter α) (timer : Option ℕ) : Bool :=
  timer.all fun i => s.tasks[i]?.all fun t => t.phase matches .returned || t.phase matches .failed

/-- The row of a trade is closed, if it was found. -/
def closeRow (s : TradeDBWriter α) (tradeId : α) (found : Bool) : TradeDBWriter α :=
  if found then { s with closed := s.closed ++ [tradeId] } else s

def taskStep [DecidableEq α] (s : TradeDBWriter α) (i : ℕ) (t : TradeTask α) (e : TradeTaskEvent) :
    Option (TradeDBWriter α) :=
  match t.kind, t.phase, e with
  | .timer, .created, .enter => some (s.setTask i (s.afterFlush t))
  | .sized, .created, .enter | .exit _, .created, .enter | .timer, .sleeping, .wake =>
    some (s.flushBuffer i t)
  | .stop, .awaiting timer, .proceed =>
    if s.timerEnded timer then some ((s.timerAwaited timer).flushBuffer i t) else none
  | .stop, .awaiting timer, .cancel => some ((s.timerAwaited timer).flushBuffer i t)
  | _, .flushing entries false, .commit =>
    some ({ s with table := s.table ++ entries }.setTask i { t with phase := .flushing entries true })
  | _, .flushing _ true, .finish => some (s.setTask i (s.afterFlush t))
  | _, .flushing entries _, .fail =>
    some ({ s with buffer := entries ++ s.buffer }.setTask i (s.afterFlush t))
  | .exit tradeId, .updating, .execute =>
    some (s.setTask i { t with phase := .executed (tradeId ∈ s.table) })
  | .exit tradeId, .executed found, .apply =>
    some ((s.closeRow tradeId found).setTask i { t with phase := .returned })
  | .exit _, .updating, .fail | .exit _, .executed _, .fail =>
    some (s.setTask i { t with phase := .returned })
  | .stop, .disposing, .finish => some (s.setTask i { t with seen := s.accepted, phase := .returned })
  | .stop, .disposing, .fail => some (s.setTask i { t with phase := .failed })
  | _, .created, .cancel | _, .sleeping, .cancel | _, .flushing _ _, .cancel | _, .updating, .cancel
  | _, .executed _, .cancel | _, .disposing, .cancel => some (s.setTask i (cancelled t))
  | _, _, _ => none

def step [DecidableEq α] (batchSize : ℕ) (s : TradeDBWriter α) :
    TradeEvent α → Option (TradeDBWriter α)
  | .start =>
    if s.running then some s
    else
      some { s with
        running := true
        tasks := s.tasks ++ [{ kind := .timer }]
        flushTask := some s.tasks.length }
  | .write tradeId =>
    let buffer := s.buffer ++ [tradeId]
    some { s with
      buffer
      accepted := s.accepted ++ [tradeId]
      tasks := if batchSize ≤ buffer.length then s.tasks ++ [{ kind := .sized }] else s.tasks }
  | .exit tradeId =>
    some { s with tasks := s.tasks ++ [{ kind := .exit tradeId, seen := s.accepted }] }
  | .stop =>
    if s.running then
      some { s with
        running := false
        tasks := s.tasks ++ [{ kind := .stop, phase := .awaiting s.flushTask }] }
    else some s
  | .task i e => s.tasks[i]?.bind fun t => s.taskStep i t e

end TradeDBWriter

end TdSandboxed
