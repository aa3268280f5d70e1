/-
TdSandboxed.Audit.AuditWriter — the queue of audit entries and its worker
(`audit/audit_writer.py`).

An entry goes from the queue into the batch that is being collected, from
there into one insert, and with its commit into the table. The queue counts
the entries that were put and not yet marked done; whoever waits in `join`
is let go when the count reaches zero.

* `_pending_batch` is an attribute: all workers share it. There is more than
  one worker when `start` is called while a `stop` is still waiting.
* A task can be cancelled wherever it awaits, and an insert can fail before
  its commit or after it. The commit is one step.
* What `log_sync` commits is kept apart from what came through the queue.
* The batch timeout and the timeouts of the drains strike at any time.
-/
import Mathlib.Data.List.Basic

namespace TdSandboxed

/-- Where a worker task is suspended. -/
inductive AuditWorker (α : Type)
  | created
  /-- `_collect_batch`: the first entry of a batch is awaited. -/
  | waiting
  /-- The batch is not full, and its next entry is awaited. -/
  | collecting
  /-- `_batch_insert`, before or after the commit. -/
  | inserting (batch : List α) (committed : Bool)
  | ended
  deriving DecidableEq

/-- Where a call of `stop` is suspended. -/
inductive AuditStop (α : Type)
  | draining
  /-- The worker was cancelled and is awaited. -/
  | awaiting (worker : Option ℕ)
  /-- `_flush_remaining`: what a cancelled worker left, and what was drawn
  from the queue. -/
  | flushing (reclaimed drawn : List α) (committed : Bool)
  | ended
  deriving DecidableEq

inductive DrainPhase
  | waiting
  /-- The count of the queue was zero. -/
  | letGo
  | returned
  | raised
  deriving DecidableEq

structure AuditDrain (α : Type) where
  /-- What had been enqueued when the drain was called. -/
  before : List α
  phase : DrainPhase
  deriving DecidableEq

structure AuditWriterConfig where
  queueSize : ℕ
  batchSize : ℕ

structure AuditWriter (α : Type) where
  queue : List α := []
  /-- `_unfinished_tasks` of the queue. -/
  unfinished : ℕ := 0
  pendingBatch : List α := []
  leftover : List α := []
  running : Bool := false
  workerTask : Option ℕ := none
  workers : List (AuditWorker α) := []
  stops : List (AuditStop α) := []
  drains : List (AuditDrain α) := []
  /-- The entries that were put, in order. -/
  accepted : List α := []
  /-- The rows of the table that came through the queue. -/
  committed : List α := []
  /-- The rows that `log_sync` wrote. -/
  synced : List α := []

inductive AuditWorkerEvent
  /-- A new task runs up to its first await. -/
  | enter
  | get
  /-- The time of the batch is up. -/
  | handOver
  | commit
  /-- The insert returns, or raises something that is logged. -/
  | finish
  | cancel
  deriving DecidableEq

inductive AuditStopEvent
  /-- The drain returned or timed out. -/
  | drained
  /-- The worker ended. -/
  | proceed
  | cancel
  | commit
  | finish
  deriving DecidableEq

inductive AuditEvent (α : Type)
  | start
  /-- `log_async` or `enqueue_nowait` puts an entry. -/
  | enqueue (entry : α)
  | logSync (entry : α)
  | drain
  | drainReturns (i : ℕ)
  /-- The timeout, or a cancellation. -/
  | drainRaises (i : ℕ)
  | stop
  | worker (i : ℕ) (e : AuditWorkerEvent)
  | stopping (i : ℕ) (e : AuditStopEvent)

namespace AuditDrain

variable {α : Type}

def letGo (d : AuditDrain α) : AuditDrain α :=
  match d.phase with
  | .waiting => { d with phase := .letGo }
  | _ => d

end AuditDrain

namespace AuditWriter

variable {α : Type}

def setWorker (s : AuditWriter α) (i : ℕ) (w : AuditWorker α) : AuditWriter α :=
  { s with workers := s.workers.set i w }

def setStop (s : AuditWriter α) (i : ℕ) (p : AuditStop α) : AuditWriter α :=
  { s with stops := s.stops.set i p }

/-- `task_done`, as often as there are entries. -/
def taskDone (s : AuditWriter α) (entries : List α) : AuditWriter α :=
  let unfinished := s.unfinished - entries.length
  { s with
    unfinished
    drains := if unfinished = 0 then s.drains.map AuditDrain.letGo else s.drains }

/-- The head of `_collect_batch`. -/
def beginBatch (s : AuditWriter α) (i : ℕ) : AuditWriter α :=
  { s with pendingBatch := [] }.setWorker i .waiting

/-- An entry is taken from the queue; a full batch is handed over before the
next await. -/
def getEntry (c : AuditWriterConfig) (s : AuditWriter α) (i : ℕ) : Option (AuditWriter α) :=
  match s.queue with
  | [] => none
  | a :: queue =>
    let batch := s.pendingBatch ++ [a]
    some (if batch.length < c.batchSize then
        { s with queue, pendingBatch := batch }.setWorker i .collecting
      else { s with queue, pendingBatch := [] }.setWorker i (.inserting batch false))

/-- The `except asyncio.CancelledError` of `_worker_loop`. -/
def reclaim (s : AuditWriter α) (i : ℕ) : AuditWriter α :=
  ({ s with pendingBatch := [], leftover := s.leftover ++ s.pendingBatch }.taskDone
    s.pendingBatch).setWorker i .ended

/-- `_worker_loop` and `_collect_batch`. -/
def workerStep (c : AuditWriterConfig) (s : AuditWriter α) (i : ℕ) :
    AuditWorker α → AuditWorkerEvent → Option (AuditWriter α)
  | .created, .enter => some (s.beginBatch i)
  | .created, .cancel => some (s.setWorker i .ended)
  | .waiting, .get => s.getEntry c i
  | .waiting, .cancel => some (s.reclaim i)
  | .collecting, .get => s.getEntry c i
  | .collecting, .handOver =>
    if s.pendingBatch = [] then some (s.beginBatch i)
    else some ({ s with pendingBatch := [] }.setWorker i (.inserting s.pendingBatch false))
  | .collecting, .cancel => some (s.reclaim i)
  | .inserting batch false, .commit =>
    some ({ s with committed := s.committed ++ batch }.setWorker i (.inserting batch true))
  | .inserting batch _, .finish => some ((s.taskDone batch).beginBatch i)
  | .inserting batch _, .cancel => some ((s.taskDone batch).setWorker i .ended)
  | _, _ => none

/-- `_flush_remaining`, up to its insert. -/
def flushRemaining (s : AuditWriter α) (i : ℕ) : AuditWriter α :=
  if s.leftover ++ s.queue = [] then s.setStop i .ended
  else { s with leftover := [], queue := [] }.setStop i (.flushing s.leftover s.queue false)

/-- The worker of a `stop` was awaited; a cancellation of the await is
caught. -/
def workerAwaited (s : AuditWriter α) (worker : Option ℕ) : AuditWriter α :=
  if worker.isSome then { s with workerTask := none } else s

def workerEnded (s : AuditWriter α) (worker : Option ℕ) : Bool :=
  worker.all fun i => s.workers[i]?.all fun w => w matches .ended

/-- `stop` after its start. -/
def stopStep (s : AuditWriter α) (i : ℕ) : AuditStop α → AuditStopEvent → Option (AuditWriter α)
  | .draining, .drained => some (s.setStop i (.awaiting s.workerTask))
  | .draining, .cancel => some (s.setStop i .ended)
  | .awaiting worker, .proceed =>
    if s.workerEnded worker then some ((s.workerAwaited worker).flushRemaining i) else none
  | .awaiting worker, .cancel => some ((s.workerAwaited worker).flushRemaining i)
  | .flushing reclaimed drawn false, .commit =>
    some ({ s with committed := s.committed ++ (reclaimed ++ drawn) }.setStop i
      (.flushing reclaimed drawn true))
  | .flushing _ drawn _, .finish => some ((s.taskDone drawn).setStop i .ended)
  | .flushing _ drawn _, .cancel => some ((s.taskDone drawn).setStop i .ended)
  | _, _ => none

def step (c : AuditWriterConfig) (s : AuditWriter α) : AuditEvent α → Option (AuditWriter α)
  | .start =>
    if s.running then some s
    else
      some { s with
        running := true
        workers := s.workers ++ [.created]
        workerTask := some s.workers.length }
  | .enqueue entry =>
    if s.queue.length < c.queueSize then
      some { s with
        queue := s.queue ++ [entry]
        unfinished := s.unfinished + 1
        accepted := s.accepted ++ [entry] }
    else none
  | .logSync entry => some { s with synced := s.synced ++ [entry] }
  | .drain =>
    some { s with
      drains := s.drains ++ [⟨s.accepted, if s.unfinished = 0 then .returned else .waiting⟩] }
  | .drainReturns i =>
    s.drains[i]?.bind fun d =>
      match d.phase with
      | .letGo => some { s with drains := s.drains.set i { d with phase := .returned } }
      | _ => none
  | .drainRaises i =>
    s.drains[i]?.bind fun d =>
      match d.phase with
      | .waiting | .letGo => some { s with drains := s.drains.set i { d with phase := .raised } }
      | _ => none
  | .stop =>
    if s.running then some { s with running := false, stops := s.stops ++ [.draining] } else some s
  | .worker i e => s.workers[i]?.bind fun w => s.workerStep c i w e
  | .stopping i e => s.stops[i]?.bind fun p => s.stopStep i p e

end AuditWriter

end TdSandboxed
