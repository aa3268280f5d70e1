/-
TdSandboxed.Engine.Lifecycle — the life of the engine
(`engine/lifecycle.py`, `engine/lock_lost.py`).

`run()` is one task: recovery, the start of the live services, a wait, and
the stop sequence. While it is suspended anything else may run: the
callback that reports the loss of the process lock, signals, and any
number of calls of `shutdown()`.

* Which event `run()` waits for depends on whether a `GracefulShutdown` is
  configured: it has an event of its own, and the lifecycle has another.
* `shutdown()` reads the running flag at once; with an audit service it
  then writes a row before it sets an event.
* The mediator is bound by the constructor, so the callback is
  `_on_lock_lost` from the first step on.
* The audit rows, the recovery outcome and the shutdown result are left
  out, and so is the `shutdown_sequence` at the end of `shutdown()`.
-/
import TdSandboxed.Lib.Run

namespace TdSandboxed

/-- The optional parts. -/
structure LifecycleConfig where
  gracefulShutdown : Bool := false
  auditService : Bool := false
  exposureReservation : Bool := false
  emergencyStopHandler : Bool := false
  deriving DecidableEq

/-- Where `run()` is suspended. -/
inductive RunPhase
  | created
  | recovering
  | startingLive
  | startingAudit
  | startingReservation
  | startingEmergencyStop
  /-- The audit row of the start. -/
  | auditingStart
  | waiting
  /-- `GracefulShutdown.initiate` -/
  | initiating
  /-- The audit row of the stop. -/
  | auditingStopped
  | stoppingEmergencyStop
  | stoppingLive
  | stoppingAudit
  | finished
  /-- An await raised. -/
  | raised
  deriving DecidableEq

namespace RunPhase

/-- Before the services are up. -/
def starting : RunPhase → Bool
  | .created | .recovering | .startingLive | .startingAudit | .startingReservation
  | .startingEmergencyStop => true
  | _ => false

/-- The wait is over. -/
def ended : RunPhase → Bool
  | .initiating | .auditingStopped | .stoppingEmergencyStop | .stoppingLive | .stoppingAudit
  | .finished | .raised => true
  | _ => false

end RunPhase

structure EngineLifecycle where
  config : LifecycleConfig
  phase : RunPhase := .created
  running : Bool := false
  shutdownEvent : Bool := false
  /-- The event of the `GracefulShutdown`. -/
  gracefulEvent : Bool := false
  signalHandlers : Bool := false
  /-- Calls of `shutdown()` that are writing their audit row. -/
  calls : ℕ := 0
  /-- The loss of the lock was reported while `run()` was waiting. -/
  lost : Bool := false
  /-- `shutdown()` was called while `run()` was waiting. -/
  asked : Bool := false
  deriving DecidableEq

inductive LifecycleEvent
  | run
  /-- The await of `run()` completes. -/
  | reply
  /-- The await of `run()` raises. -/
  | fail
  /-- The task of `run()` is cancelled. -/
  | cancel
  | signal
  | lockLost
  /-- `shutdown()` is called. -/
  | shutdown
  /-- A call of `shutdown()` has written its audit row, or failed to. -/
  | shutdownAudited
  /-- A call of `shutdown()` is cancelled. -/
  | shutdownCancelled
  deriving DecidableEq

namespace EngineLifecycle

def goto (s : EngineLifecycle) (p : RunPhase) : EngineLifecycle := { s with phase := p }

/-- The event that `run()` waits for. -/
def awaited (s : EngineLifecycle) : Bool :=
  if s.config.gracefulShutdown then s.gracefulEvent else s.shutdownEvent

/-! ## `run()` -/

/-- The services are up. -/
def started (s : EngineLifecycle) : EngineLifecycle :=
  { s with running := true }.goto (if s.config.auditService then .auditingStart else .waiting)

def startEmergencyStop (s : EngineLifecycle) : EngineLifecycle :=
  if s.config.emergencyStopHandler then s.goto .startingEmergencyStop else s.started

def startReservation (s : EngineLifecycle) : EngineLifecycle :=
  if s.config.exposureReservation then s.goto .startingReservation else s.startEmergencyStop

def startAudit (s : EngineLifecycle) : EngineLifecycle :=
  if s.config.auditService then s.goto .startingAudit else s.startReservation

/-- The recovery is over. -/
def startLive (s : EngineLifecycle) : EngineLifecycle :=
  { s with signalHandlers := s.config.gracefulShutdown }.goto .startingLive

/-- The end of `run()`. -/
def stopped (s : EngineLifecycle) : EngineLifecycle := { s with running := false }.goto .finished

def stopAudit (s : EngineLifecycle) : EngineLifecycle :=
  if s.config.auditService then s.goto .stoppingAudit else s.stopped

def stopEmergencyStop (s : EngineLifecycle) : EngineLifecycle :=
  if s.config.emergencyStopHandler then s.goto .stoppingEmergencyStop else s.goto .stoppingLive

/-- What follows the wait. -/
def stop (s : EngineLifecycle) : EngineLifecycle :=
  if s.config.auditService then s.goto .auditingStopped else s.stopEmergencyStop

/-- The awaited event is set. -/
def wake (s : EngineLifecycle) : EngineLifecycle :=
  if s.config.gracefulShutdown then { s with signalHandlers := false }.goto .initiating else s.stop

/-- The await of `run()` completes. -/
def resume (s : EngineLifecycle) : Option EngineLifecycle :=
  match s.phase with
  | .recovering => some s.startLive
  | .startingLive => some s.startAudit
  | .startingAudit => some s.startReservation
  | .startingReservation => some s.startEmergencyStop
  | .startingEmergencyStop => some s.started
  | .auditingStart => some (s.goto .waiting)
  | .waiting => if s.awaited then some s.wake else none
  | .initiating => some s.stop
  | .auditingStopped => some s.stopEmergencyStop
  | .stoppingEmergencyStop => some (s.goto .stoppingLive)
  | .stoppingLive => some s.stopAudit
  | .stoppingAudit => some s.stopped
  | .created | .finished | .raised => none

/-- The await of `run()` raises. A failed audit row is only logged, and
`initiate` does not raise. -/
def raise (s : EngineLifecycle) : Option EngineLifecycle :=
  match s.phase with
  | .recovering | .startingLive | .startingAudit | .startingReservation | .startingEmergencyStop
  | .stoppingEmergencyStop | .stoppingLive | .stoppingAudit => some (s.goto .raised)
  | .auditingStart => some (s.goto .waiting)
  | .auditingStopped => some s.stopEmergencyStop
  | .created | .waiting | .initiating | .finished | .raised => none

/-- The cancellation of the wait ends it. -/
def cancelRun (s : EngineLifecycle) : Option EngineLifecycle :=
  match s.phase with
  | .waiting | .initiating => some s.stop
  | .created | .finished | .raised => none
  | _ => some (s.goto .raised)

/-! ## What else runs -/

/-- The wait sees the report of a lost lock. -/
def noteLoss (s : EngineLifecycle) : EngineLifecycle :=
  { s with lost := s.lost || s.phase = .waiting }

/-- The wait sees a call of `shutdown()`. -/
def noteCall (s : EngineLifecycle) : EngineLifecycle :=
  { s with asked := s.asked || s.phase = .waiting }

/-- `_on_lock_lost` -/
def onLockLost (s : EngineLifecycle) : EngineLifecycle :=
  { s with running := false, shutdownEvent := true }

/-- `shutdown()` after the audit row. -/
def triggerShutdown (s : EngineLifecycle) : EngineLifecycle :=
  if s.config.gracefulShutdown then { s with gracefulEvent := true }
  else { s with running := false, shutdownEvent := true }

/-- `shutdown()` up to the audit row. -/
def shutdown (s : EngineLifecycle) : EngineLifecycle :=
  if s.running then
    if s.config.auditService then { s with calls := s.calls + 1 } else s.triggerShutdown
  -- "no-op if not running"
  else s

def step (s : EngineLifecycle) : LifecycleEvent → Option EngineLifecycle
  | .run => if s.phase = .created then some (s.goto .recovering) else none
  | .reply => s.resume
  | .fail => s.raise
  | .cancel => s.cancelRun
  | .signal => if s.signalHandlers then some { s with gracefulEvent := true } else none
  | .lockLost => some s.noteLoss.onLockLost
  | .shutdown => some s.noteCall.shutdown
  | .shutdownAudited =>
    if 0 < s.calls then some { s with calls := s.calls - 1 }.triggerShutdown else none
  | .shutdownCancelled => if 0 < s.calls then some { s with calls := s.calls - 1 } else none

/-- Once the loss of the lock has been reported to a waiting `run()`, the
event it waits for is set; once `shutdown()` has been called, it is set or a
call is writing its audit row, behind which it sets the event; and `run()`
is never stuck in its wait while `shutdown()` does nothing. -/
def Stoppable (s : EngineLifecycle) : Prop :=
  s.phase = .waiting →
    (s.lost → s.awaited) ∧ (s.asked → s.awaited ∨ 0 < s.calls) ∧ (s.running = false → s.awaited)

instance (s : EngineLifecycle) : Decidable s.Stoppable := inferInstanceAs (Decidable (_ → _))

/-- A loss of the lock is reported without a `GracefulShutdown`, or once its
event is set, or before or after the time in which `run()` counts on the
running flag. And no call of `shutdown()` is cancelled in its audit row that
was the only one to set the event. -/
structure Heeded (s : EngineLifecycle) (e : LifecycleEvent) : Prop where
  loss : e = .lockLost → s.phase = .auditingStart ∨ s.phase = .waiting →
    s.config.gracefulShutdown → s.gracefulEvent
  call : e = .shutdownCancelled → s.phase = .waiting → s.asked → s.awaited ∨ 1 < s.calls

instance (s : EngineLifecycle) (e : LifecycleEvent) : Decidable (s.Heeded e) :=
  decidable_of_iff
    ((e = .lockLost → s.phase = .auditingStart ∨ s.phase = .waiting →
        s.config.gracefulShutdown → s.gracefulEvent) ∧
      (e = .shutdownCancelled → s.phase = .waiting → s.asked → s.awaited ∨ 1 < s.calls))
    ⟨fun h => ⟨h.1, h.2⟩, fun h => ⟨h.loss, h.call⟩⟩

end EngineLifecycle

end TdSandboxed
