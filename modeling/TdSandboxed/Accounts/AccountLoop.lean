/-
TdSandboxed.Accounts.AccountLoop — the loops of the accounts
(`accounts/account_manager.py`, `start_all_accounts`, `add_account`,
`_spawn_account_task`, `_run_account_loop`, `_handle_account_error`).

A loop reads the status of its account from Redis and leaves when it is
stopped or paused. Loops are only started by `start_all_accounts` and
`add_account`; the other operations change the status, and `stop_account`
cancels the loop that `_tasks` holds, which is the last one of the account.

* What a loop awaits besides the status is one await each: the heartbeat,
  the handler, the sleep, and last error and alert together.
* A cancelled loop does not go on from where it was. What Redis has been
  sent is still executed.
* The lock of `add_account` only delays one of its calls behind another; the
  account is checked and added in one step.
-/
import TdSandboxed.Accounts.AccountManager

namespace TdSandboxed

/-- The loop leaves on this status. -/
def exitsOn (status : Option AccountState) : Bool :=
  status = some .stopped ∨ status = some .paused

/-- Where a loop is suspended. -/
inductive LoopPhase
  | created
  /-- `_update_health` -/
  | beating
  /-- The `get` of the status is issued, not executed yet. -/
  | reading
  /-- The reply to the `get` is on the way. -/
  | read (status : Option AccountState)
  /-- The signal handler was called, after this status was read. -/
  | handling (status : Option AccountState)
  | sleeping (status : Option AccountState)
  /-- `_handle_account_error`: the `set` of the error is issued. -/
  | savingError
  | savedError
  /-- The last error and the alert. -/
  | reporting
  /-- `finally`: `_clear_health` -/
  | clearing
  | ended
  deriving DecidableEq

namespace LoopPhase

/-- In the `while`, and not about to leave it. -/
def stays : LoopPhase → Bool
  | .created | .beating | .reading | .handling _ | .sleeping _ => true
  | .read status => !exitsOn status
  | _ => false

/-- Where a cancellation leads. A loop that has not run has no `finally`,
and one in its `finally` leaves it. -/
def afterCancel : LoopPhase → LoopPhase
  | .created | .clearing | .ended => .ended
  | _ => .clearing

end LoopPhase

structure AccountLoop where
  phase : LoopPhase := .created
  /-- `active` was saved for the account after the loop was started. -/
  saved : Bool := false
  /-- `stop_account` called `cancel()`. -/
  cancelRequested : Bool := false
  deriving DecidableEq

inductive SpawnerKind
  | startAll
  | addAccount (accountId : String) (active : Bool)
  deriving DecidableEq

/-- Where `start_all_accounts` or `add_account` is suspended. -/
inductive SpawnerPhase
  | created
  /-- The MT5 connections. -/
  | connecting
  /-- `set` of `active` issued for an account, not executed yet; the accounts
  that are left. -/
  | saving (accountId : String) (todo : List String)
  | saved (todo : List String)
  | finished (out : OperationOutcome)
  deriving DecidableEq

structure Spawner where
  kind : SpawnerKind
  /-- How many accounts there were when the iteration began. -/
  size : ℕ := 0
  phase : SpawnerPhase := .created
  deriving DecidableEq

/-- The manager with everything that is under way. -/
structure AccountTasks where
  manager : AccountManager
  /-- The accounts whose configuration says `active`. -/
  configActive : List String
  /-- A signal handler is set. -/
  handler : Bool
  loops : String → List AccountLoop := fun _ => []
  calls : List AccountCall := []
  spawners : List Spawner := []

inductive LoopEvent
  | start
  /-- The server executes the issued command. -/
  | server
  | reply
  | fail
  | cancel
  deriving DecidableEq

inductive AccountTaskEvent
  | call (operation : Operation) (accountId : String)
  | startAll
  /-- `config`: whether the account is active in the configuration, if it is
  there. -/
  | addAccount (accountId : String) (config : Option Bool)
  | callStep (i : ℕ) (e : OperationEvent)
  | spawnerStep (i : ℕ) (e : OperationEvent)
  | loopStep (accountId : String) (k : ℕ) (e : LoopEvent)

namespace AccountTasks

def setLoop (s : AccountTasks) (a : String) (k : ℕ) (l : AccountLoop) : AccountTasks :=
  { s with loops := Function.update s.loops a ((s.loops a).set k l) }

def setCall (s : AccountTasks) (i : ℕ) (c : AccountCall) : AccountTasks :=
  { s with calls := s.calls.set i c }

def setSpawner (s : AccountTasks) (i : ℕ) (p : Spawner) : AccountTasks :=
  { s with spawners := s.spawners.set i p }

/-! ## Loops -/

/-- Where an uncancelled loop goes on. -/
def nextPhase (s : AccountTasks) (a : String) : LoopPhase → LoopEvent → Option LoopPhase
  | .created, .start => some .beating
  | .beating, .reply => some .reading
  | .read status, .reply =>
    some (if exitsOn status then .clearing
      else if s.handler then .handling status else .sleeping status)
  | .handling status, .reply => some (.sleeping status)
  | .sleeping _, .reply => some .beating
  -- `set_error` raises for an account that is not configured
  | .beating, .fail | .reading, .fail | .read _, .fail | .handling _, .fail =>
    some (if a ∈ s.manager.accounts then .savingError else .clearing)
  | .savedError, .reply => some .reporting
  | .reporting, .reply | .savingError, .fail | .savedError, .fail | .reporting, .fail =>
    some .clearing
  | .clearing, .reply | .clearing, .fail => some .ended
  | _, _ => none

/-- `self._tasks.pop` after the `_clear_health` of the `finally`. -/
def popEnded (s : AccountTasks) (a : String) (l : AccountLoop) (e : LoopEvent) : AccountTasks :=
  if l.phase = .clearing ∧ e = .reply then { s with manager := s.manager.popTask a } else s

/-- One step of loop `k` of account `a`. -/
def loopStep (s : AccountTasks) (a : String) (k : ℕ) (l : AccountLoop) :
    LoopEvent → Option AccountTasks
  | .cancel =>
    if l.cancelRequested then
      some (s.setLoop a k { l with cancelRequested := false, phase := l.phase.afterCancel })
    else none
  | .server =>
    match l.phase with
    | .reading => some (s.setLoop a k { l with phase := .read (s.manager.status a) })
    | .savingError =>
      some ({ s with manager := s.manager.saveAccountStatus a .error }.setLoop a k
        { l with phase := .savedError })
    | _ => none
  | e =>
    if l.cancelRequested then none
    else (s.nextPhase a l.phase e).map fun p => (s.popEnded a l e).setLoop a k { l with phase := p }

/-! ## Operations -/

/-- `task.cancel()` on the loop that `_tasks` holds. -/
def cancelLoop (s : AccountTasks) (a : String) : AccountTasks :=
  match (s.loops a).getLast? with
  | none => s
  | some l => s.setLoop a ((s.loops a).length - 1) { l with cancelRequested := true }

/-- One step of an operation; a `stop_account` that finds a task cancels
it. -/
def callStep (s : AccountTasks) (i : ℕ) (c : AccountCall) (e : OperationEvent) :
    Option AccountTasks :=
  (c.step s.manager e).map fun p =>
    let s := { s with manager := p.1 }.setCall i p.2
    if c.phase = .created ∧ p.2.phase = .cancellingTask then s.cancelLoop c.accountId else s

/-! ## Starting loops -/

/-- `asyncio.create_task`, and the entry in `_tasks`. -/
def spawnLoop (s : AccountTasks) (a : String) : AccountTasks :=
  { s with
    manager := { s.manager with tasks := s.manager.tasks ++ [a] }
    loops := Function.update s.loops a (s.loops a ++ [{}]) }

/-- The accounts in turn, up to the first that gets a loop. -/
def spawnNext (s : AccountTasks) (i : ℕ) (p : Spawner) : List String → AccountTasks
  | [] => s.setSpawner i { p with phase := .finished .returned }
  | a :: todo =>
    if a ∈ s.configActive ∧ a ∉ s.manager.tasks then
      (s.spawnLoop a).setSpawner i { p with phase := .saving a todo }
    else s.spawnNext i p todo

/-- After the MT5 connections. -/
def spawnAll (s : AccountTasks) (i : ℕ) (p : Spawner) : AccountTasks :=
  match p.kind with
  | .startAll => s.spawnNext i { p with size := s.manager.accounts.length } s.manager.accounts
  | .addAccount a _ => s.spawnNext i p [a]

/-- The connections first, if there is a connection manager. -/
def connect (s : AccountTasks) (i : ℕ) (p : Spawner) : AccountTasks :=
  if s.manager.connectionManager then s.setSpawner i { p with phase := .connecting }
  else s.spawnAll i p

/-- `self._accounts[account_id] = new_account` -/
def addConfig (s : AccountTasks) (a : String) (active : Bool) : AccountTasks :=
  { s with
    manager := { s.manager with accounts := s.manager.accounts ++ [a] }
    configActive := if active then s.configActive ++ [a] else s.configActive }

def startSpawner (s : AccountTasks) (i : ℕ) (p : Spawner) : AccountTasks :=
  match p.kind with
  | .startAll => s.connect i p
  | .addAccount a active =>
    if a ∈ s.manager.accounts then
      s.setSpawner i { p with
        phase := .finished (.raised (valueError s!"Account {a} already loaded")) }
    else if active then (s.addConfig a active).connect i p
    else (s.addConfig a active).setSpawner i { p with phase := .finished .returned }

/-- `active` is saved for an account. -/
def saveActive (s : AccountTasks) (a : String) : AccountTasks :=
  { s with
    manager := s.manager.saveAccountStatus a .active
    loops := Function.update s.loops a ((s.loops a).map fun l => { l with saved := true }) }

/-- The iteration over the dict goes on, unless it has grown. -/
def continueSpawner (s : AccountTasks) (i : ℕ) (p : Spawner) (todo : List String) : AccountTasks :=
  if p.kind = .startAll ∧ s.manager.accounts.length ≠ p.size then
    s.setSpawner i { p with
      phase := .finished (.raised "RuntimeError('dictionary changed size during iteration')") }
  else s.spawnNext i p todo

def spawnerStep (s : AccountTasks) (i : ℕ) (p : Spawner) (e : OperationEvent) :
    Option AccountTasks :=
  match p.phase, e with
  | .created, .start => some (s.startSpawner i p)
  | .connecting, .reply => some (s.spawnAll i p)
  | .saving a todo, .server => some ((s.saveActive a).setSpawner i { p with phase := .saved todo })
  | .saved todo, .reply => some (s.continueSpawner i p todo)
  | .connecting, .fail x | .saving _ _, .fail x | .saved _, .fail x =>
    some (s.setSpawner i { p with phase := .finished (.raised x) })
  | .created, .cancel | .connecting, .cancel | .saving _ _, .cancel | .saved _, .cancel =>
    some (s.setSpawner i { p with phase := .finished .cancelled })
  | _, _ => none

/-- `add_account`, as far as the configuration that it is called with. -/
def addSpawner (a : String) : Option Bool → Spawner
  | some active => { kind := .addAccount a active }
  | none =>
    { kind := .addAccount a false
      phase := .finished (.raised (valueError s!"Account {a} not found in config")) }

def step (s : AccountTasks) : AccountTaskEvent → Option AccountTasks
  | .call operation accountId => some { s with calls := s.calls ++ [{ operation, accountId }] }
  | .startAll => some { s with spawners := s.spawners ++ [{ kind := .startAll }] }
  | .addAccount a config => some { s with spawners := s.spawners ++ [addSpawner a config] }
  | .callStep i e => s.calls[i]?.bind fun c => s.callStep i c e
  | .spawnerStep i e => s.spawners[i]?.bind fun p => s.spawnerStep i p e
  | .loopStep a k e => (s.loops a)[k]?.bind fun l => s.loopStep a k l e

end AccountTasks

end TdSandboxed
