/-
TdSandboxed.Engine.RecoveryOrchestrator — the recovery after a crash
(`engine/recovery_orchestrator.py`, `RecoveryOrchestrator.run`;
`run_position_reconciliation` of `state/position_reconciler.py`).

The accounts found at startup are visited one after the other: the snapshot
is validated and, if there is a valid one, compared with MT5. If all
results are successes the daily P&L is recalculated and trading resumes.

* An account may be visited more than once; its last result counts.
* Whatever a call raises ends the run.
* The audit entry is left out, and so are the numbers of the P&L
  recalculation. It comes back with a success flag for each account that is
  not left to manual intervention, and nothing but the log reads it.
-/
import TdSandboxed.State.CrashRecovery
import TdSandboxed.State.TradingResumer

namespace TdSandboxed

/-- Which parts are configured. -/
structure RecoveryCollaborators where
  crashRecovery : Bool := false
  coldStorage : Bool := false
  positionReconciler : Bool := false
  /-- The recalculator and the risk registry. -/
  pnlRecalculator : Bool := false
  tradingResumer : Bool := false

/-- What the calls of one visit come back with. -/
structure VisitReplies where
  reads : CrashRecoveryManager.SnapshotReads
  mt5 : PositionReconciler.Mt5Reply
  /-- The time of the snapshot that is saved. -/
  now : ℚ
  /-- The alert or the save raises. -/
  writeError : Option String := none

/-- What the calls of a run come back with. -/
structure RecoveryReplies where
  startup : CrashRecoveryManager.StartupReads
  /-- The visits in their order. -/
  visit : ℕ → VisitReplies
  /-- The P&L recalculation of an account. -/
  recalculate : String → Except String Bool
  setOrder : SetOrder
  resume : String → ResumeReplies

structure RecoveryOutcome where
  crashResult : Option RecoveryResult := none
  reconciliationResults : Option (List (String × ReconciliationResult)) := none
  pnlRecalculationResults : Option (List (String × Bool)) := none
  resumeResult : Option ResumeResult := none

/-- What a run leaves behind, and its outcome. -/
structure RecoveryRun where
  manager : AccountManager
  /-- The statuses that the `TradingResumer` wrote. -/
  writes : List (String × AccountState) := []
  recoveryMode : Bool := false
  outcome : Except String RecoveryOutcome

namespace RecoveryOrchestrator

/-! ## Position reconciliation -/

/-- The result for an account without a valid snapshot. -/
def startFresh (a : String) : ReconciliationResult :=
  { accountId := a, success := true, requiresManualIntervention := false }

/-- The body of the loop over the accounts. -/
def visitAccount (computeChecksum : Checksum) (coldStorage : Bool) (a : String) (r : VisitReplies) :
    Except String ReconciliationResult :=
  match CrashRecoveryManager.validateSnapshotForRecovery computeChecksum coldStorage r.reads with
  | .error x => .error x
  | .ok (true, some snapshot) =>
    match PositionReconciler.reconcileAccount computeChecksum r.now a snapshot r.mt5, r.writeError,
        r.mt5 with
    | .error x, _, _ => .error x
    | .ok _, some x, .positions _ => .error x
    | .ok (result, _), _, _ => .ok result
  | .ok _ => .ok (startFresh a)

/-- `results[a] = result` -/
def setResult (results : List (String × ReconciliationResult)) (a : String)
    (result : ReconciliationResult) : List (String × ReconciliationResult) :=
  if (results.lookup a).isSome then results.map fun p => if p.1 = a then (a, result) else p
  else results ++ [(a, result)]

/-- `run_position_reconciliation`, from the visit with number `i` on. -/
def runPositionReconciliation (computeChecksum : Checksum) (coldStorage : Bool)
    (visit : ℕ → VisitReplies) :
    ℕ → List (String × ReconciliationResult) → List String →
      Except String (List (String × ReconciliationResult))
  | _, results, [] => .ok results
  | i, results, a :: as =>
    match visitAccount computeChecksum coldStorage a (visit i) with
    | .error x => .error x
    | .ok result =>
      runPositionReconciliation computeChecksum coldStorage visit (i + 1)
        (setResult results a result) as

/-! ## The run -/

/-- `_run_pnl_recalculation` -/
def runPnlRecalculation (configured : Bool) (recalculate : String → Except String Bool)
    (results : List (String × ReconciliationResult)) : Except String (List (String × Bool)) :=
  if configured then
    (results.filter fun p => !p.2.requiresManualIntervention).mapM fun p =>
      (recalculate p.1).map fun success => (p.1, success)
  else .ok []

/-- `_run_trading_resume` -/
def runTradingResume (configured : Bool) (m : AccountManager) (setOrder : SetOrder)
    (results : List (String × ReconciliationResult)) (pnl : List (String × Bool))
    (replies : String → ResumeReplies) : Resuming × Except String ResumeResult :=
  if configured then
    TradingResumer.resumeTradingAfterRecovery m setOrder results (pnl.map (·.1)) replies
  else
    ({ manager := m },
      .ok { success := false, accountsResumed := 0, accountsSkipped := 0, accountsBlocked := 0
            accountResults := [] })

/-- What follows the reconciliation. -/
def finish (c : RecoveryCollaborators) (r : RecoveryReplies) (m : AccountManager)
    (crashResult : RecoveryResult) (results : List (String × ReconciliationResult)) : RecoveryRun :=
  if results.all (·.2.success) then
    match runPnlRecalculation c.pnlRecalculator r.recalculate results with
    | .error x => { manager := m, recoveryMode := true, outcome := .error x }
    | .ok pnl =>
      match runTradingResume c.tradingResumer m r.setOrder results pnl r.resume with
      | (s, .error x) =>
        { manager := s.manager, writes := s.writes, recoveryMode := true, outcome := .error x }
      | (s, .ok resumeResult) =>
        { manager := s.manager
          writes := s.writes
          outcome := .ok
            { crashResult := some crashResult
              reconciliationResults := some results
              pnlRecalculationResults := some pnl
              resumeResult := some resumeResult } }
  else
    { manager := m
      recoveryMode := true
      outcome := .ok { crashResult := some crashResult, reconciliationResults := some results } }

/-- `run` -/
def run (computeChecksum : Checksum) (c : RecoveryCollaborators) (r : RecoveryReplies)
    (m : AccountManager) : RecoveryRun :=
  if c.crashRecovery then
    match CrashRecoveryManager.startupSequence r.startup with
    | .error _ => { manager := m, outcome := .error "SystemExit(1)" }
    | .ok crashResult =>
      if crashResult.recoveryMode then
        if c.positionReconciler then
          match runPositionReconciliation computeChecksum c.coldStorage r.visit 0 []
              crashResult.accountsNeedingRecovery with
          | .error x => { manager := m, recoveryMode := true, outcome := .error x }
          | .ok results => finish c r m crashResult results
        else { manager := m, outcome := .ok { crashResult := some crashResult } }
      else { manager := m, outcome := .ok { crashResult := some crashResult } }
  else { manager := m, outcome := .ok {} }

end RecoveryOrchestrator

end TdSandboxed
