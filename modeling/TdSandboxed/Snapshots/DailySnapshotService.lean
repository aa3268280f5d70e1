/-
TdSandboxed.Snapshots.DailySnapshotService — the scheduler of the daily
snapshots (`snapshots/daily_snapshot_service.py`).

A task waits for the next reset of its session; when it comes, it starts
tasks for sessions that seem to have none and snapshots the accounts whose
session equals its own. Which sessions have a task is decided by task name,
and the name is made of the time zone only.

Accounts and their firms change between any two steps. The early-wake
re-sleep is part of the wait. What is written for an account is left out,
and a snapshot that fails is only logged.
-/
import TdSandboxed.Config.SessionClock

namespace TdSandboxed

/-- Where a scheduler task is suspended. -/
inductive SchedulerPhase
  | created
  /-- Until the reset, in UTC. -/
  | sleeping (targetReset : ℤ)
  /-- `_take_snapshots_for_session`: the accounts it was called with. -/
  | snapshotting (accountIds : List String)
  | done
  deriving DecidableEq

structure SchedulerTask where
  session : SessionConfig
  phase : SchedulerPhase := .created
  deriving DecidableEq

/-- `_safe_tz_name` -/
def safeTzName (timezone : String) : String :=
  timezone.map fun c => if c.toNat = 47 then Char.ofNat 95 else c

namespace SessionConfig

def taskName (session : SessionConfig) : String := "daily_snapshot_" ++ safeTzName session.timezone

end SessionConfig

structure DailySnapshotService where
  /-- The account manager: its active accounts, and the firm of each account. -/
  active : List String := []
  firmId : String → Option String := fun _ => none
  /-- The sessions of the firms, if a registry is wired in. -/
  firmRegistry : Option (String → Option SessionConfig) := none
  defaultSession : SessionConfig := TdSandboxed.defaultSession
  running : Bool := false
  schedulerTasks : List SchedulerTask := []
  now : ℤ := 0

/-- A step of a task is given by the task's place in the list. -/
inductive SnapshotEvent
  | start
  | stop
  /-- Accounts are added, removed or bound to other firms. -/
  | configure (active : List String) (firmId : String → Option String)
  | elapse (microseconds : ℕ)
  /-- A new task runs up to its sleep. -/
  | enter (i : ℕ)
  /-- The tick: the reset has come. -/
  | wake (i : ℕ)
  /-- The snapshots are taken. -/
  | finish (i : ℕ)

namespace DailySnapshotService

/-- `_resolve_session_for_account` -/
def resolveSession (s : DailySnapshotService) (a : String) : SessionConfig :=
  match s.firmRegistry with
  | none => s.defaultSession
  | some firms => ((s.firmId a).bind firms).getD s.defaultSession

/-- `_accounts_for_session` -/
def accountsForSession (s : DailySnapshotService) (session : SessionConfig) : List String :=
  s.active.filter fun a => s.resolveSession a = session

/-- `_group_accounts_by_session` -/
def groupAccountsBySession (s : DailySnapshotService) : List (SessionConfig × List String) :=
  (s.active.map s.resolveSession).eraseDups.map fun session => (session, s.accountsForSession session)

/-- The names of the tasks that are not done. -/
def runningNames (s : DailySnapshotService) : List String :=
  (s.schedulerTasks.filter (·.phase ≠ .done)).map fun t => t.session.taskName

/-- `_ensure_session_tasks`. The names are those before the loop. -/
def ensureSessionTasks (s : DailySnapshotService) : DailySnapshotService :=
  let missing := s.groupAccountsBySession.filter fun g => g.1.taskName ∉ s.runningNames
  { s with schedulerTasks := s.schedulerTasks ++ missing.map fun g => { session := g.1 } }

/-- The tasks of `start`: one for each session, or one for the default
session while there are no accounts. -/
def startTasks (s : DailySnapshotService) : List SchedulerTask :=
  match s.groupAccountsBySession with
  | [] => [{ session := s.defaultSession }]
  | groups => groups.map fun g => { session := g.1 }

/-- The head of `_scheduler_loop`. -/
def loopHead (zoneInfo : String → Zone) (s : DailySnapshotService) (session : SessionConfig) :
    SchedulerPhase :=
  if s.running then .sleeping (session.nextResetAt zoneInfo s.now) else .done

def setPhase (s : DailySnapshotService) (i : ℕ) (t : SchedulerTask) (p : SchedulerPhase) :
    DailySnapshotService :=
  { s with schedulerTasks := s.schedulerTasks.set i { t with phase := p } }

def step (zoneInfo : String → Zone) (s : DailySnapshotService) :
    SnapshotEvent → Option DailySnapshotService
  | .start =>
    if s.running then some s
    else some { s with running := true, schedulerTasks := s.schedulerTasks ++ s.startTasks }
  | .stop => if s.running then some { s with running := false, schedulerTasks := [] } else some s
  | .configure active firmId => some { s with active, firmId }
  | .elapse d => some { s with now := s.now + d }
  | .enter i =>
    s.schedulerTasks[i]?.bind fun t =>
      match t.phase with
      | .created => some (s.setPhase i t (s.loopHead zoneInfo t.session))
      | _ => none
  | .wake i =>
    s.schedulerTasks[i]?.bind fun t =>
      match t.phase with
      | .sleeping target =>
        if target ≤ s.now then
          if s.running then
            some (s.ensureSessionTasks.setPhase i t (.snapshotting (s.accountsForSession t.session)))
          else some (s.setPhase i t .done)
        else none
      | _ => none
  | .finish i =>
    s.schedulerTasks[i]?.bind fun t =>
      match t.phase with
      | .snapshotting _ => some (s.setPhase i t (s.loopHead zoneInfo t.session))
      | _ => none

end DailySnapshotService

end TdSandboxed
