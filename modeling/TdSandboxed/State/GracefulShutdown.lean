/-
TdSandboxed.State.GracefulShutdown — the shutdown of the engine
(`state/graceful_shutdown.py`, with the `stop` of `SnapshotService` and
`ColdStorageService`, `AccountManager.shutdown` and
`CrashRecoveryManager.shutdown_sequence`).

All parts share one `RedisStateManager`. Its client raises once the manager
is closed, and nothing in a shutdown connects it again. Each phase swallows
what its calls raise, except for the fourth, which sets the clean-shutdown
flag and releases the process lock.

* `closedUses` records the phases in which the closed client was asked for.
* Every call may fail for a reason of its own; the failures are inputs.
* While it waits for orders the engine polls once a second. At the
  thirtieth poll, thirty seconds have passed.
* The background loops are cancelled and what they do in the meantime is
  left out, and so are the durations.
-/
import TdSandboxed.Accounts.AccountManager

namespace TdSandboxed

inductive ShutdownPhase
  | notStarted
  | stoppingSignals
  | waitingOrders
  | persistingState
  | closingConnections
  | complete
  deriving DecidableEq

structure ShutdownResult where
  success : Bool
  phaseReached : ShutdownPhase
  pendingOrdersAtTimeout : ℕ
  accountsSnapshotCount : ℕ
  exitCode : ℕ
  deriving DecidableEq

/-- The parts that are wired. -/
structure ShutdownComponents where
  accounts : List String
  mt5ConnectionManager : Bool := false
  /-- Whether it is running, if there is one. -/
  snapshotService : Option Bool := none
  zmqAdapter : Bool := false
  crashRecovery : Bool := false
  /-- Whether it is running, if there is one. -/
  coldStorageService : Option Bool := none

/-- What the calls of a shutdown come back with. -/
structure ShutdownReplies where
  /-- The statuses in Redis when the final snapshots are made. -/
  snapshotStatus : String → Option AccountState
  /-- The statuses when the snapshots are counted. -/
  countStatus : String → Option AccountState
  /-- The statuses when the final rows of cold storage are made. -/
  coldStatus : String → Option AccountState
  /-- Seconds since the start of the wait, and orders pending, by poll. -/
  poll : ℕ → ℚ × ℕ
  /-- Two polls are a second apart. -/
  elapsed_le : ∀ n : ℕ, n ≤ (poll n).1
  stopConnectionsError : Option String := none
  closeError : Option String := none
  statusError : Option String := none
  /-- Collecting the data of an account. -/
  collectError : String → Option String := fun _ => none
  saveError : String → Option String := fun _ => none
  writeRowsError : Option String := none
  heartbeatError : Option String := none
  setFlagError : Option String := none
  releaseLockError : Option String := none

/-- No call fails for a reason of its own. -/
structure ShutdownReplies.NoFailures (r : ShutdownReplies) : Prop where
  stopConnections : r.stopConnectionsError = none
  close : r.closeError = none
  status : r.statusError = none
  collect : ∀ a, r.collectError a = none
  save : ∀ a, r.saveError a = none
  writeRows : r.writeRowsError = none
  heartbeat : r.heartbeatError = none
  setFlag : r.setFlagError = none
  releaseLock : r.releaseLockError = none

/-- What a shutdown acts on. -/
structure ShutdownState where
  currentPhase : ShutdownPhase := .notStarted
  shutdownInProgress : Bool := false
  /-- The shared manager has its client. -/
  connected : Bool := true
  /-- `engine:shutdown:clean` -/
  shutdownFlag : Bool
  /-- `engine:lock:process` -/
  processLock : Bool
  /-- Accounts whose final snapshot is in Redis. -/
  snapshots : List String := []
  /-- Accounts whose final row is in cold storage. -/
  coldRows : List String := []
  closedUses : List ShutdownPhase := []
  deriving DecidableEq

namespace GracefulShutdown

variable (c : ShutdownComponents) (r : ShutdownReplies)

def pendingOrderTimeoutSeconds : ℚ := 30

/-! ## The shared client -/

/-- `self.client`, and a command that has an effect or fails. -/
def withClient (s : ShutdownState) (error : Option String) (effect : ShutdownState → ShutdownState) :
    ShutdownState × Option String :=
  if s.connected then
    match error with
    | some x => (s, some x)
    | none => (effect s, none)
  else
    ({ s with closedUses := s.closedUses ++ [s.currentPhase] },
      some "Redis not connected. Call connect() first.")

/-- `RedisStateManager.close` -/
def closeRedis (s : ShutdownState) : ShutdownState × Option String :=
  if s.connected then
    match r.closeError with
    | some x => (s, some x)
    | none => ({ s with connected := false }, none)
  else (s, none)

/-- The statuses of all accounts. -/
def getStatuses (s : ShutdownState) : ShutdownState × Option String :=
  if c.accounts.isEmpty then (s, none) else withClient s r.statusError id

/-! ## Phases 1 and 2 -/

/-- `AccountManager.shutdown` -/
def shutdownAccountManager (s : ShutdownState) : ShutdownState × Option String :=
  match c.mt5ConnectionManager, r.stopConnectionsError with
  | true, some x => (s, some x)
  | _, _ => closeRedis r s

/-- `_stop_signal_processing` -/
def stopSignalProcessing (s : ShutdownState) : ShutdownState :=
  (shutdownAccountManager c r { s with currentPhase := .stoppingSignals }).1

/-- The loop of `_wait_for_pending_orders`, from poll `n` on. -/
def pollOrders : ℕ → ℕ → ℕ
  | 0, n => (r.poll n).2
  | left + 1, n =>
    if pendingOrderTimeoutSeconds ≤ (r.poll n).1 then (r.poll n).2
    else if (r.poll n).2 = 0 then 0
    else pollOrders left (n + 1)

/-- `_wait_for_pending_orders` -/
def waitForPendingOrders (s : ShutdownState) : ShutdownState × ℕ :=
  ({ s with currentPhase := .waitingOrders }, if c.zmqAdapter then pollOrders r 30 0 else 0)

/-! ## Phase 3 -/

/-- The active accounts. -/
def activeAccounts (status : String → Option AccountState) : List String :=
  c.accounts.filter fun a => status a = some .active

/-- `SnapshotService._snapshot_account` -/
def snapshotAccount (s : ShutdownState) (a : String) : ShutdownState :=
  (withClient s ((r.collectError a).or (r.saveError a)) fun s =>
    { s with snapshots := s.snapshots ++ [a] }).1

/-- `SnapshotService._snapshot_all_accounts` -/
def snapshotAllAccounts (s : ShutdownState) : ShutdownState × Option String :=
  match getStatuses c r s with
  | (s, some x) => (s, some x)
  | (s, none) => ((activeAccounts c r.snapshotStatus).foldl (snapshotAccount r) s, none)

/-- `SnapshotService.stop`; a failed snapshot is logged. -/
def stopSnapshotService (s : ShutdownState) (running : Bool) : ShutdownState :=
  if running then (snapshotAllAccounts c r s).1 else s

/-- The accounts whose data could be collected for cold storage. -/
def collectRows : ShutdownState → List String → ShutdownState × List String
  | s, [] => (s, [])
  | s, a :: as =>
    match withClient s (r.collectError a) id with
    | (s, some _) => collectRows s as
    | (s, none) =>
      let (s, rows) := collectRows s as
      (s, a :: rows)

/-- `ColdStorageService._snapshot_all_accounts` -/
def writeColdRows (s : ShutdownState) : ShutdownState × Option String :=
  match getStatuses c r s with
  | (s, some x) => (s, some x)
  | (s, none) =>
    let (s, rows) := collectRows r s (activeAccounts c r.coldStatus)
    match r.writeRowsError with
    | some x => (s, some x)
    | none => ({ s with coldRows := s.coldRows ++ rows }, none)

/-- `ColdStorageService.stop`; a failure of its writer is logged. -/
def stopColdStorageService (s : ShutdownState) (running : Bool) : ShutdownState :=
  if running then (writeColdRows c r s).1 else s

/-- `_get_active_account_count` -/
def getActiveAccountCount (s : ShutdownState) : ShutdownState × Except String ℕ :=
  match getStatuses c r s with
  | (s, some x) => (s, .error x)
  | (s, none) =>
    (s, .ok (c.accounts.countP fun a =>
      r.countStatus a = some .active || r.countStatus a = some .paused))

/-- The snapshot service in `_persist_final_state`. -/
def persistSnapshots (s : ShutdownState) : ShutdownState × ℕ :=
  match c.snapshotService with
  | none => (s, 0)
  | some running =>
    match getActiveAccountCount c r (stopSnapshotService c r s running) with
    | (s, .ok count) => (s, count)
    | (s, .error _) => (s, 0)

/-- The cold storage service in `_persist_final_state`. -/
def persistColdStorage (s : ShutdownState) : ShutdownState :=
  match c.coldStorageService with
  | none => s
  | some running => stopColdStorageService c r s running

/-- `_persist_final_state`. Draining the audit queue touches nothing here. -/
def persistFinalState (s : ShutdownState) : ShutdownState × ℕ :=
  let (s, count) := persistSnapshots c r { s with currentPhase := .persistingState }
  (persistColdStorage c r s, count)

/-! ## Phases 4 and 5 -/

/-- `CrashRecoveryManager.shutdown_sequence` -/
def shutdownSequence (s : ShutdownState) : ShutdownState × Option String :=
  match r.heartbeatError with
  | some x => (s, some x)
  | none =>
    match withClient s r.setFlagError fun s => { s with shutdownFlag := true } with
    | (s, some x) => (s, some x)
    | (s, none) => withClient s r.releaseLockError fun s => { s with processLock := false }

/-- `_close_connections`. Closing the ZMQ adapter touches nothing here. -/
def closeConnections (s : ShutdownState) : ShutdownState :=
  (closeRedis r { s with currentPhase := .closingConnections }).1

/-- `initiate` -/
def initiate (s : ShutdownState) : ShutdownState × ShutdownResult :=
  if s.shutdownInProgress then
    (s, { success := false, phaseReached := s.currentPhase, pendingOrdersAtTimeout := 0
          accountsSnapshotCount := 0, exitCode := 1 })
  else
    let s := stopSignalProcessing c r { s with shutdownInProgress := true }
    let (s, pending) := waitForPendingOrders c r s
    let (s, count) := persistFinalState c r s
    match if c.crashRecovery then shutdownSequence r s else (s, none) with
    | (s, some _) =>
      (s, { success := false, phaseReached := s.currentPhase, pendingOrdersAtTimeout := pending
            accountsSnapshotCount := count, exitCode := 1 })
    | (s, none) =>
      ({ closeConnections r s with currentPhase := .complete },
        { success := true, phaseReached := .complete, pendingOrdersAtTimeout := pending
          accountsSnapshotCount := count, exitCode := 0 })

end GracefulShutdown

end TdSandboxed
