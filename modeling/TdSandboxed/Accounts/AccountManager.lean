/-
TdSandboxed.Accounts.AccountManager — the status of an account and the
operations that change it (`accounts/state.py`,
`accounts/account_manager.py`).

The status lives in Redis. Every operation but `set_error` reads it, checks
the transition and writes, with an await at each end of both round trips,
so what it checked may be out of date when it writes. `AccountCall.step` is
one such operation, await by await; any number of them may be under way.

`stop_account` first waits for the account's loop and for its MT5
connection. A cancellation of that first wait is swallowed together with
the one of the loop. The loops themselves and the hot reload are left out:
`tasks` only says which accounts have one.
-/
import Mathlib.Logic.Function.Basic
import TdSandboxed.Rules.BaseRule

namespace TdSandboxed

/-! ## Account states -/

inductive AccountState
  | active
  | paused
  | stopped
  | error
  deriving DecidableEq, Repr

namespace AccountState

def value : AccountState → String
  | .active => "active"
  | .paused => "paused"
  | .stopped => "stopped"
  | .error => "error"

def validTransitions : AccountState → List AccountState
  | .active => [.paused, .stopped, .error]
  | .paused => [.active, .stopped, .error]
  | .stopped => [.active]
  | .error => [.stopped]

def canTransitionTo (s target : AccountState) : Bool := target ∈ s.validTransitions

end AccountState

/-- Paused, stopped or in error. -/
def Halted (status : Option AccountState) : Prop :=
  status = some .paused ∨ status = some .stopped ∨ status = some .error

instance (status : Option AccountState) : Decidable (Halted status) :=
  inferInstanceAs (Decidable (_ ∨ _ ∨ _))

/-! ## Texts -/

def valueError (text : String) : String := "ValueError(" ++ Lib.pyRepr text ++ ")"

/-- A status in an f-string. -/
def statusText (status : Option AccountState) : String := (status.map AccountState.value).getD "None"

/-! ## State -/

/-- How a write to Redis ends. -/
inductive WriteReply
  | completes
  /-- It raises and is not executed. -/
  | fails (text : String)
  /-- It is executed and raises. -/
  | lost (text : String)

structure Alert where
  accountId : String
  alertType : String
  message : String
  deriving DecidableEq

/-- The manager and what it keeps in Redis: the status under
`account:<id>:status`, and the alerts it published. -/
structure AccountManager where
  accounts : List String
  /-- An `MT5ConnectionManager` is registered. -/
  connectionManager : Bool := false
  tasks : List String := []
  status : String → Option AccountState := fun _ => none
  alerts : List Alert := []

namespace AccountManager

def saveAccountStatus (m : AccountManager) (a : String) (s : AccountState) : AccountManager :=
  { m with status := Function.update m.status a (some s) }

def popTask (m : AccountManager) (a : String) : AccountManager :=
  { m with tasks := m.tasks.filter (· ≠ a) }

def publishAlert (m : AccountManager) (alert : Alert) : AccountManager :=
  { m with alerts := m.alerts ++ [alert] }

@[simp] theorem saveAccountStatus_status (m : AccountManager) (a b : String) (s : AccountState) :
    (m.saveAccountStatus a s).status b = if b = a then some s else m.status b := by
  simp [saveAccountStatus, Function.update_apply]

@[simp] theorem popTask_status (m : AccountManager) (a : String) : (m.popTask a).status = m.status :=
  rfl

@[simp] theorem publishAlert_status (m : AccountManager) (alert : Alert) :
    (m.publishAlert alert).status = m.status := rfl

/-- `_validate_account_exists` -/
def validateAccountExists (m : AccountManager) (a : String) : Except String Unit :=
  if a ∈ m.accounts then .ok ()
  else .error (valueError (s!"Account '{a}' not found in configuration. Available accounts: " ++
    "[" ++ ", ".intercalate (m.accounts.map Lib.pyRepr) ++ "]"))

end AccountManager

/-! ## Operations -/

inductive Operation
  | startAccount
  | stopAccount
  | pauseAccount
  | pauseForRuleViolation (ruleType : String) (value limit : ℚ)
  | resumeAccount
  | acknowledgeError
  | setError
  deriving DecidableEq

namespace Operation

/-- The status an operation writes. -/
def target : Operation → AccountState
  | .startAccount | .resumeAccount => .active
  | .stopAccount | .acknowledgeError => .stopped
  | .pauseAccount | .pauseForRuleViolation _ _ _ => .paused
  | .setError => .error

def transitionError (a : String) (current target : AccountState) : String :=
  valueError s!"Cannot transition account '{a}' from '{current.value}' to '{target.value}'"

/-- What an operation does about the status it read: raise, return or
write its target. -/
def check (op : Operation) (a : String) (current : Option AccountState) : Except String Bool :=
  match op, current with
  | .startAccount, none => .ok true
  | .startAccount, some s =>
    if s.canTransitionTo .active then .ok true else .error (transitionError a s .active)
  | .stopAccount, _ => .ok (current ≠ some .stopped)
  | .pauseAccount, none | .pauseForRuleViolation _ _ _, none =>
    .error (valueError s!"Cannot pause account '{a}' - no prior state. Start it first.")
  | .pauseAccount, some s | .pauseForRuleViolation _ _ _, some s =>
    if s.canTransitionTo .paused then .ok true else .error (transitionError a s .paused)
  | .resumeAccount, _ =>
    if current = some .paused then .ok true
    else .error (valueError
      s!"Cannot resume account '{a}' - not paused (current: {statusText current})")
  | .acknowledgeError, _ =>
    if current = some .error then .ok true
    else .error (valueError s!"Account '{a}' is not in error state (current: {statusText current})")
  | .setError, _ => .ok true

/-- What is published after the write. -/
def alert (op : Operation) (a : String) : Option Alert :=
  match op with
  | .pauseForRuleViolation ruleType value limit => some
    { accountId := a, alertType := "risk"
      message := s!"Rule violation: {ruleType} at {fmtFixed 2 value}% " ++
        s!"(limit: {fmtFixed 2 limit}%)" }
  | _ => none

end Operation

/-! ## One operation under way -/

inductive OperationOutcome
  | returned
  /-- An `Exception` with this `repr`. -/
  | raised (repr : String)
  | cancelled
  deriving DecidableEq

/-- Where an operation is suspended. -/
inductive OperationPhase
  | created
  /-- `stop_account`: waiting for the account's loop. -/
  | cancellingTask
  /-- `stop_account`: waiting for the MT5 connection. -/
  | stoppingConnection
  /-- `get` issued, not executed yet. -/
  | reading
  /-- The reply to the `get` is on the way. -/
  | read (current : Option AccountState)
  /-- `set` issued, not executed yet. -/
  | writing
  /-- The reply to the `set` is on the way. -/
  | wrote
  /-- `publish` of the alert. -/
  | alerting (alert : Alert)
  | alerted
  | finished (out : OperationOutcome)
  deriving DecidableEq

structure AccountCall where
  operation : Operation
  accountId : String
  phase : OperationPhase := .created
  deriving DecidableEq

inductive OperationEvent
  | start
  /-- The server executes the issued command. -/
  | server
  /-- The await completes. -/
  | reply
  | fail (repr : String)
  | cancel
  deriving DecidableEq

namespace AccountCall

def goto (c : AccountCall) (p : OperationPhase) : AccountCall := { c with phase := p }

@[simp] theorem goto_operation (c : AccountCall) (p : OperationPhase) :
    (c.goto p).operation = c.operation := rfl
@[simp] theorem goto_accountId (c : AccountCall) (p : OperationPhase) :
    (c.goto p).accountId = c.accountId := rfl
@[simp] theorem goto_phase (c : AccountCall) (p : OperationPhase) : (c.goto p).phase = p := rfl

/-- After the account's loop is gone: the MT5 connection, if any. -/
def stopConnection (m : AccountManager) : OperationPhase :=
  if m.connectionManager then .stoppingConnection else .reading

/-- The first await of an operation. -/
def entry (m : AccountManager) (c : AccountCall) : OperationPhase :=
  match c.operation with
  | .setError => .writing
  | .stopAccount => if c.accountId ∈ m.tasks then .cancellingTask else stopConnection m
  | _ => .reading

def start (m : AccountManager) (c : AccountCall) : OperationPhase :=
  match m.validateAccountExists c.accountId with
  | .ok () => c.entry m
  | .error repr => .finished (.raised repr)

/-- One step of an operation. -/
def step (m : AccountManager) (c : AccountCall) (e : OperationEvent) :
    Option (AccountManager × AccountCall) :=
  let a := c.accountId
  match c.phase, e with
  | .created, .start => some (m, c.goto (c.start m))
  | .created, .cancel => some (m, c.goto (.finished .cancelled))
  -- the loop ended, or did not within the timeout, or the wait was cancelled
  | .cancellingTask, .reply | .cancellingTask, .cancel =>
    some (m.popTask a, c.goto (stopConnection m))
  | .cancellingTask, .fail x => some (m.popTask a, c.goto (.finished (.raised x)))
  | .stoppingConnection, .reply => some (m, c.goto .reading)
  | .reading, .server => some (m, c.goto (.read (m.status a)))
  | .read current, .reply =>
    match c.operation.check a current with
    | .ok true => some (m, c.goto .writing)
    | .ok false => some (m, c.goto (.finished .returned))
    | .error repr => some (m, c.goto (.finished (.raised repr)))
  | .writing, .server => some (m.saveAccountStatus a c.operation.target, c.goto .wrote)
  | .wrote, .reply =>
    match c.operation.alert a with
    | some alert => some (m, c.goto (.alerting alert))
    | none => some (m, c.goto (.finished .returned))
  | .alerting alert, .server => some (m.publishAlert alert, c.goto .alerted)
  | .alerted, .reply => some (m, c.goto (.finished .returned))
  | .stoppingConnection, .fail x | .reading, .fail x | .read _, .fail x | .writing, .fail x
  | .wrote, .fail x | .alerting _, .fail x | .alerted, .fail x =>
    some (m, c.goto (.finished (.raised x)))
  | .stoppingConnection, .cancel | .reading, .cancel | .read _, .cancel | .writing, .cancel
  | .wrote, .cancel | .alerting _, .cancel | .alerted, .cancel =>
    some (m, c.goto (.finished .cancelled))
  | _, _ => none

end AccountCall

end TdSandboxed
