/-
TdSandboxed.State.TradingResumer — the resumption of trading after a
recovery (`state/trading_resumer.py`, `TradingResumer`).

Every account that was reconciled is set to `active`, set to `error`, or
left as it is. Its status before the crash is the one Redis still has.

* The accounts are gone through as the elements of a set: once each, in
  any order.
* Every Redis call may raise. A write that raises may have been executed.
* The loop of an account that was resumed, the notification and the
  duration are left out.
-/
import TdSandboxed.Accounts.AccountManager
import TdSandboxed.State.PositionReconciler

namespace TdSandboxed

/-- The order in which a set is gone through. -/
structure SetOrder where
  order : List String → List String
  perm : ∀ xs, (order xs).Perm xs

structure AccountResumeResult where
  accountId : String
  resumed : Bool
  previousStatus : String
  currentStatus : String
  reason : String
  deriving DecidableEq

structure ResumeResult where
  success : Bool
  accountsResumed : ℕ
  accountsSkipped : ℕ
  accountsBlocked : ℕ
  accountResults : List AccountResumeResult
  deriving DecidableEq

/-- What the calls for one account come back with. -/
structure ResumeReplies where
  /-- The status read of `_should_resume_account` raises. -/
  statusError : Option String := none
  /-- The status read after it raises. -/
  statusErrorAgain : Option String := none
  /-- `_initialize_account_rules` raises. -/
  rulesError : Option String := none
  write : WriteReply := .completes

/-- The manager, the statuses that were written, and the counters. -/
structure Resuming where
  manager : AccountManager
  writes : List (String × AccountState) := []
  accountsResumed : ℕ := 0
  accountsSkipped : ℕ := 0
  accountsBlocked : ℕ := 0
  accountResults : List AccountResumeResult := []

namespace TradingResumer

/-- `_get_pre_crash_status` -/
def getPreCrashStatus (m : AccountManager) (a : String) : String :=
  match m.status a with
  | none => "stopped"
  | some status => status.value

/-- `_should_resume_account`, for the status read. A P&L recalculation that
failed is only logged. -/
def shouldResumeAccount (preCrashStatus : String) (reconciliation : Option ReconciliationResult) :
    Bool × String :=
  if preCrashStatus ≠ "active" then
    (false, s!"Pre-crash status was '{preCrashStatus}', not 'active'")
  else
    match reconciliation with
    | none => (true, "All recovery checks passed")
    | some r =>
      if r.requiresManualIntervention then
        (false, "Requires manual intervention after reconciliation")
      else if !r.success then
        (false, "Reconciliation failed: " ++ r.errorMessage.getD "None")
      else (true, "All recovery checks passed")

/-- `save_account_status` -/
def saveAccountStatus (s : Resuming) (a : String) (status : AccountState) :
    WriteReply → Resuming × Option String
  | .completes =>
    ({ s with manager := s.manager.saveAccountStatus a status, writes := s.writes ++ [(a, status)] },
      none)
  | .fails x => (s, some x)
  | .lost x =>
    ({ s with manager := s.manager.saveAccountStatus a status, writes := s.writes ++ [(a, status)] },
      some x)

/-- `_spawn_account_task` of the account manager -/
def spawnAccountTask (s : Resuming) (a : String) (r : ResumeReplies) : Resuming × Option String :=
  if a ∈ s.manager.tasks then (s, none)
  else
    match r.rulesError with
    | some x => (s, some x)
    | none =>
      saveAccountStatus { s with manager := { s.manager with tasks := a :: s.manager.tasks } } a
        .active r.write

/-- `_resume_account` -/
def resumeAccount (s : Resuming) (a : String) (r : ResumeReplies) : Resuming × AccountResumeResult :=
  let failed (previous x : String) : AccountResumeResult :=
    { accountId := a, resumed := false, previousStatus := previous, currentStatus := "error"
      reason := "Resume failed: " ++ x }
  match r.statusErrorAgain with
  | some x => (s, failed "unknown" x)
  | none =>
    let preCrashStatus := getPreCrashStatus s.manager a
    match spawnAccountTask s a r with
    | (s, some x) => (s, failed preCrashStatus x)
    | (s, none) =>
      (s, { accountId := a, resumed := true, previousStatus := preCrashStatus
            currentStatus := "active", reason := "Resumed successfully" })

/-- An account that is not resumed: blocked or skipped. -/
def leaveAccount (s : Resuming) (a : String) (reconciliation : Option ReconciliationResult)
    (reason : String) (r : ResumeReplies) : Resuming × Option String :=
  match r.statusErrorAgain with
  | some x => (s, some x)
  | none =>
    let preStatus := getPreCrashStatus s.manager a
    let result (currentStatus : String) : AccountResumeResult :=
      { accountId := a, resumed := false, previousStatus := preStatus, currentStatus, reason }
    if reconciliation.any fun c => c.requiresManualIntervention || !c.success then
      match saveAccountStatus { s with accountsBlocked := s.accountsBlocked + 1 } a .error r.write with
      | (s, some x) => (s, some x)
      | (s, none) => ({ s with accountResults := s.accountResults ++ [result "error"] }, none)
    else
      ({ s with accountsSkipped := s.accountsSkipped + 1
                accountResults := s.accountResults ++ [result preStatus] }, none)

/-- The body of the loop for one account, and the exception it ends with. -/
def processAccount (reconciliation : String → Option ReconciliationResult)
    (replies : String → ResumeReplies) (s : Resuming) (a : String) : Resuming × Option String :=
  let r := replies a
  match r.statusError with
  | some x => (s, some x)
  | none =>
    match shouldResumeAccount (getPreCrashStatus s.manager a) (reconciliation a) with
    | (true, _) =>
      let (s, result) := resumeAccount s a r
      ({ s with accountsResumed := s.accountsResumed + (if result.resumed then 1 else 0)
                accountsBlocked := s.accountsBlocked + (if result.resumed then 0 else 1)
                accountResults := s.accountResults ++ [result] }, none)
    | (false, reason) => leaveAccount s a (reconciliation a) reason r

/-- The loop over the accounts. -/
def processAccounts (reconciliation : String → Option ReconciliationResult)
    (replies : String → ResumeReplies) (s : Resuming) : List String → Resuming × Option String
  | [] => (s, none)
  | a :: as =>
    match processAccount reconciliation replies s a with
    | (s, some x) => (s, some x)
    | (s, none) => processAccounts reconciliation replies s as

/-- `resume_trading_after_recovery`, for the results of the reconciliation
and the accounts of the P&L results. -/
def resumeTradingAfterRecovery (m : AccountManager) (setOrder : SetOrder)
    (reconciliation : List (String × ReconciliationResult)) (pnlAccounts : List String)
    (replies : String → ResumeReplies) : Resuming × Except String ResumeResult :=
  let allAccounts := setOrder.order (reconciliation.map (·.1) ++ pnlAccounts).dedup
  match processAccounts (fun a => reconciliation.lookup a) replies { manager := m } allAccounts with
  | (s, some x) => (s, .error x)
  | (s, none) =>
    (s, .ok { success := true
              accountsResumed := s.accountsResumed
              accountsSkipped := s.accountsSkipped
              accountsBlocked := s.accountsBlocked
              accountResults := s.accountResults })

end TradingResumer

end TdSandboxed
