/-
TdSandboxed.Engine.SessionTasks — the sessions of the orchestrator and the
run tasks of their nodes (`engine/live_orchestrator.py`, from `add_account`
to `_handle_node_run_crash` and from `_stop_session` to the end of the
teardown; `engine/account_session.py`).

The calls of `add_account`, `remove_account` and `reload_account` are tasks
over one table. What runs between two awaits is one step:

* `add_account` up to its first await is one step, node launch and
  `mark_running` included: nothing that builds a session suspends. What
  `_isolate_failed_session` awaits after that touches no session.
* A teardown takes the session and the recorded task out of the table, and
  awaits `stop_async`, which ends at any moment: it returns, raises or times
  out, and the teardown goes on alike. It cancels the run task if that is not
  done, and awaits it.
* A run task ends at any moment, and its done-callback runs later. A task
  that awaits the run task resumes after the callback, which was added first.

A session launches at most one run task, which has the session's number.
The orchestrator has its account manager; `dispose` is left out.
-/
import TdSandboxed.Lib.TaskSystem

namespace TdSandboxed

open Lib

/-! ## Sessions -/

inductive SessionState
  | pending
  | running
  | failed
  | stopped
  deriving DecidableEq

/-- How `run_async` ends. -/
inductive RunEnd
  | returned
  | cancelled
  | raised (repr : String)
  deriving DecidableEq

/-- The run task of a session's node. -/
inductive NodeRun
  /-- The session has no node. -/
  | absent
  | alive
  /-- Done; the callback is still to run. -/
  | done (e : RunEnd)
  | reported (e : RunEnd)
  deriving DecidableEq

/-- A session, and the task of its node. -/
structure TaskSession where
  accountId : String
  state : SessionState := .pending
  lastError : Option String := none
  nodeRun : NodeRun := .absent
  deriving DecidableEq

/-- What `_build_session_components` comes to. -/
inductive SessionBuild
  | raises (repr : String)
  /-- Without a trading node. -/
  | skeleton
  | node
  deriving DecidableEq

namespace TaskSession

def markRunning (x : TaskSession) : TaskSession := { x with state := .running, lastError := none }

def markFailed (error : String) (x : TaskSession) : TaskSession :=
  { x with state := .failed, lastError := some error }

def markStopped (x : TaskSession) : TaskSession := { x with state := .stopped }

def report (e : RunEnd) (x : TaskSession) : TaskSession := { x with nodeRun := .reported e }

/-- The run task crashed, and the callback is still to run. -/
def crashed (x : TaskSession) : Bool :=
  match x.nodeRun with
  | .done (.raised _) => true
  | _ => false

/-- `_start_session`, without its entry in the table. -/
def start (x : TaskSession) : SessionBuild → TaskSession
  | .raises repr => x.markFailed repr
  | .skeleton => x.markRunning
  | .node => { x with nodeRun := .alive }.markRunning

end TaskSession

/-! ## The table -/

structure SessionTable where
  /-- Every session so far. -/
  all : List TaskSession := []
  /-- `_sessions` -/
  sessions : String → Option ℕ := fun _ => none
  /-- `_node_run_tasks` -/
  nodeRunTasks : String → Option ℕ := fun _ => none
  /-- `_handle_node_run_crash` tasks to come: the session whose node crashed,
  the session that is given to the task, and the error. -/
  pendingIsolation : List (ℕ × ℕ × String) := []
  /-- The crashes handled: the session whose node crashed, and the session
  that was marked FAILED. -/
  marks : List (ℕ × ℕ) := []

namespace SessionTable

def alive (s : SessionTable) (i : ℕ) : Bool := s.all[i]?.any fun x => x.nodeRun = .alive

def reported (s : SessionTable) (i : ℕ) : Bool :=
  s.all[i]?.any fun x => match x.nodeRun with
    | .reported _ => true
    | _ => false

/-- The session of the account is running. -/
def isRunning (s : SessionTable) (accountId : String) : Bool :=
  (s.sessions accountId).any fun i => s.all[i]?.any fun x => x.state = .running

def addAccount (s : SessionTable) (accountId : String) (b : SessionBuild) : SessionTable :=
  if s.isRunning accountId then s
  else
    let i := s.all.length
    { s with
      all := s.all ++ [({ accountId } : TaskSession).start b]
      sessions := Function.update s.sessions accountId (some i)
      nodeRunTasks :=
        if b = .node then Function.update s.nodeRunTasks accountId (some i) else s.nodeRunTasks }

/-- The session and the recorded task of an account are taken out. -/
def pop (s : SessionTable) (accountId : String) : SessionTable :=
  { s with
    sessions := Function.update s.sessions accountId none
    nodeRunTasks := Function.update s.nodeRunTasks accountId none }

def markStopped (s : SessionTable) (i : ℕ) : SessionTable :=
  { s with all := s.all.modify i .markStopped }

/-- The run task ends. -/
def runEnds (s : SessionTable) (i : ℕ) (e : RunEnd) : Option SessionTable :=
  if s.alive i then some { s with all := s.all.modify i fun x => { x with nodeRun := .done e } }
  else none

/-- The crash-isolation task that is scheduled, for the session that the
account has now. -/
def crashIsolation (s : SessionTable) (i : ℕ) (accountId : String) : RunEnd → List (ℕ × ℕ × String)
  | .raised repr => ((s.sessions accountId).map fun j => (i, j, repr)).toList
  | .returned | .cancelled => []

/-- `_on_node_run_done` -/
def onNodeRunDone (s : SessionTable) (i : ℕ) (accountId : String) (e : RunEnd) : SessionTable :=
  { s with
    all := s.all.modify i (.report e)
    nodeRunTasks := Function.update s.nodeRunTasks accountId none
    pendingIsolation := s.pendingIsolation ++ s.crashIsolation i accountId e }

def callback (s : SessionTable) (i : ℕ) : Option SessionTable :=
  s.all[i]?.bind fun x => match x.nodeRun with
    | .done e => some (s.onNodeRunDone i x.accountId e)
    | _ => none

/-- `_handle_node_run_crash` up to its first await. -/
def isolate (s : SessionTable) : Option SessionTable :=
  match s.pendingIsolation with
  | [] => none
  | (i, j, error) :: rest =>
    some { s with
      all := s.all.modify j (.markFailed error), pendingIsolation := rest, marks := s.marks ++ [(i, j)] }

end SessionTable

/-! ## Calls -/

inductive SessionOp
  | addAccount
  | removeAccount
  | reloadAccount
  deriving DecidableEq

inductive SessionPhase
  | created
  /-- `stop_async`, with the task that was recorded. -/
  | stopping (i : ℕ) (runTask : Option ℕ)
  /-- The cancelled task is awaited. -/
  | joining (i runTask : ℕ)
  | finished
  deriving DecidableEq

structure SessionCall where
  op : SessionOp
  accountId : String
  phase : SessionPhase := .created
  deriving DecidableEq

namespace SessionCall

def goto (c : SessionCall) (p : SessionPhase) : SessionCall := { c with phase := p }

/-- The call tears this session down. -/
def tearsDown (c : SessionCall) (i : ℕ) : Prop :=
  (∃ runTask, c.phase = .stopping i runTask) ∨ ∃ runTask, c.phase = .joining i runTask

instance (c : SessionCall) (i : ℕ) : Decidable (c.tearsDown i) :=
  match h : c.phase with
  | .created | .finished => .isFalse (by simp [tearsDown, h])
  | .stopping j r => decidable_of_iff (j = i) (by simp [tearsDown, h])
  | .joining j r => decidable_of_iff (j = i) (by simp [tearsDown, h])

/-- The call returns, `reload_account` after `add_account`. -/
def finish (c : SessionCall) (s : SessionTable) (b : SessionBuild) : SessionTable × SessionCall :=
  (if c.op = .removeAccount then s else s.addAccount c.accountId b, c.goto .finished)

/-- `remove_account` up to its first await. -/
def removeAccount (c : SessionCall) (s : SessionTable) (b : SessionBuild) :
    SessionTable × SessionCall :=
  match s.sessions c.accountId with
  | none => c.finish s b
  | some i =>
    let runTask := s.nodeRunTasks c.accountId
    let s := s.pop c.accountId
    if s.all[i]?.any fun x => x.nodeRun ≠ .absent then (s, c.goto (.stopping i runTask))
    else c.finish (s.markStopped i) b

/-- What follows `stop_async`. -/
def afterStop (c : SessionCall) (s : SessionTable) (i : ℕ) (runTask : Option ℕ) (b : SessionBuild) :
    SessionTable × SessionCall :=
  match runTask with
  | none => c.finish (s.markStopped i) b
  | some t => if s.alive t then (s, c.goto (.joining i t)) else c.finish (s.markStopped i) b

/-- One step of a call; `b` is what building a session would come to. -/
def step (s : SessionTable) (_ : ℕ) (c : SessionCall) (b : SessionBuild) :
    Option (SessionTable × SessionCall) :=
  match c.phase with
  | .created => some (if c.op = .addAccount then c.finish s b else c.removeAccount s b)
  | .stopping i runTask => some (c.afterStop s i runTask b)
  | .joining i runTask => if s.reported runTask then some (c.finish (s.markStopped i) b) else none
  | .finished => none

end SessionCall

inductive NodeEvent
  | runEnds (i : ℕ) (e : RunEnd)
  | callback (i : ℕ)
  | isolate
  deriving DecidableEq

def SessionTable.nodeStep (s : SessionTable) : NodeEvent → Option SessionTable
  | .runEnds i e => s.runEnds i e
  | .callback i => s.callback i
  | .isolate => s.isolate

/-- The calls over the table, with the run tasks as surroundings. -/
def sessionSystem : TaskSystem SessionTable (SessionOp × String) SessionCall SessionBuild NodeEvent where
  init _ a := { op := a.1, accountId := a.2 }
  task := SessionCall.step
  env := SessionTable.nodeStep

abbrev SessionSystem := TaskSystem.State SessionTable SessionCall
abbrev SessionEvent := TaskSystem.Event (SessionOp × String) SessionBuild NodeEvent

/-- No sessions and no calls. -/
def noSessions : SessionSystem := { shared := {}, tasks := [] }

/-! ## What the tracking is for -/

/-- A call is tearing the session down. -/
def TornDown (calls : List SessionCall) (i : ℕ) : Prop := ∃ c ∈ calls, c.tearsDown i

instance (calls : List SessionCall) (i : ℕ) : Decidable (TornDown calls i) :=
  inferInstanceAs (Decidable (∃ c ∈ calls, c.tearsDown i))

/-- The session's run task is alive, and nobody tears the session down. -/
def Live (s : SessionSystem) (i : ℕ) (x : TaskSession) : Prop :=
  s.shared.all[i]? = some x ∧ x.nodeRun = .alive ∧ ¬ TornDown s.tasks i

/-- What holds of the tasks and of the crashes in a state. -/
structure WellTracked (s : SessionSystem) : Prop where
  one : ∀ i j x y, Live s i x → Live s j y → x.accountId = y.accountId → i = j
  recorded : ∀ i x, Live s i x → s.shared.nodeRunTasks x.accountId = some i
  own : ∀ m ∈ s.shared.marks, m.1 = m.2

/-- When a done-callback is in time: the task recorded for its account is its
own or is done, and a crash finds its own session or none. -/
def Timely (s : SessionSystem) : SessionEvent → Prop
  | .env (.callback i) => ∀ x ∈ s.shared.all[i]?,
      (∀ t ∈ s.shared.nodeRunTasks x.accountId, t = i ∨ s.shared.alive t = false) ∧
        ∀ j ∈ s.shared.sessions x.accountId, j = i ∨ x.crashed = false
  | _ => True

end TdSandboxed
