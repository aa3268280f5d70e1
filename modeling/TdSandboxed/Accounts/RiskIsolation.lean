/-
TdSandboxed.Accounts.RiskIsolation — limits checked after an update
(`accounts/risk_isolation.py`, `RiskIsolationService`).

An equity update and a completed trade are handled alike: the account's
risk state is changed, a limit is checked, and for a violation the account
is paused and then the violation is recorded. What any call raises leaves
the handler at that point.

`violation_handled_iff` gives the exact condition under which a violation
ends up recorded with the account not trading. The pause goes through the
status check of `pause_account`, which refuses every account that is not
active, so the violation of such an account is not recorded.
-/
import Mathlib.Tactic.Linarith
import TdSandboxed.Accounts.RiskRegistry

namespace TdSandboxed

structure RiskIsolationService where
  accountManager : AccountManager
  riskRegistry : RiskRegistry

/-- What the calls of a handler come back with. -/
structure HandlerReplies extends UpdateReplies where
  /-- The status read of `pause_account` raises. -/
  status : Option String := none
  pause : WriteReply := .completes
  /-- The `publish` of the alert. -/
  alert : WriteReply := .completes
  /-- The `lpush` of the violation. -/
  record : WriteReply := .completes
  /-- The `ltrim` or the `expire` after it raises. -/
  trim : Option String := none

/-- What the service is told. -/
inductive RiskEvent
  | equityUpdate (equity maxDrawdownLimit : ℚ)
  | tradeCompleted (realizedPnl dailyLossLimit : ℚ)
  deriving DecidableEq

namespace AccountManager

/-- `pause_account` up to its write. -/
def pauseForRuleViolation (m : AccountManager) (a : String) (v : RiskViolation)
    (replies : HandlerReplies) : AccountManager × Option String :=
  let op := Operation.pauseForRuleViolation v.ruleType v.currentValue v.limitValue
  match m.validateAccountExists a, replies.status with
  | .error x, _ => (m, some x)
  | .ok (), some x => (m, some x)
  | .ok (), none =>
    match op.check a (m.status a), replies.pause with
    | .error x, _ => (m, some x)
    | .ok _, .fails x => (m, some x)
    | .ok _, .lost x => (m.saveAccountStatus a op.target, some x)
    | .ok _, .completes =>
      let m := m.saveAccountStatus a op.target
      let published := (op.alert a).elim m m.publishAlert
      match replies.alert with
      | .completes => (published, none)
      | .fails x => (m, some x)
      | .lost x => (published, some x)

end AccountManager

namespace RiskIsolationService

/-- `_pause_for_violation` -/
def pauseForViolation (s : RiskIsolationService) (a : String) (v : RiskViolation)
    (replies : HandlerReplies) : RiskIsolationService × Option String :=
  match s.accountManager.pauseForRuleViolation a v replies with
  | (m, some x) => ({ s with accountManager := m }, some x)
  | (m, none) =>
    let (r, raised) := s.riskRegistry.recordViolation a v replies.record replies.trim
    ({ accountManager := m, riskRegistry := r }, raised)

/-- The body that the two handlers share, after the update. -/
def checkAndPause (s : RiskIsolationService) (a ruleType : String) (limit : ℚ)
    (replies : HandlerReplies) : RiskIsolationService × Option String :=
  match s.riskRegistry.checkAccountViolation a ruleType limit replies.load with
  | (r, .error x) => ({ s with riskRegistry := r }, some x)
  | (r, .ok (true, current)) =>
    pauseForViolation { s with riskRegistry := r } a
      { ruleType, currentValue := current, limitValue := limit } replies
  | (r, .ok (false, _)) => ({ s with riskRegistry := r }, none)

def onEquityUpdate (s : RiskIsolationService) (a : String) (equity maxDrawdownLimit : ℚ)
    (replies : HandlerReplies) : RiskIsolationService × Option String :=
  match s.riskRegistry.updateAccountEquity a equity replies.toUpdateReplies with
  | (r, some x) => ({ s with riskRegistry := r }, some x)
  | (r, none) => checkAndPause { s with riskRegistry := r } a "max_drawdown" maxDrawdownLimit replies

def onTradeCompleted (s : RiskIsolationService) (a : String) (realizedPnl dailyLossLimit : ℚ)
    (replies : HandlerReplies) : RiskIsolationService × Option String :=
  match s.riskRegistry.recordAccountTrade a realizedPnl replies.toUpdateReplies with
  | (r, some x) => ({ s with riskRegistry := r }, some x)
  | (r, none) => checkAndPause { s with riskRegistry := r } a "daily_loss" dailyLossLimit replies

def handle (s : RiskIsolationService) (a : String) (e : RiskEvent) (replies : HandlerReplies) :
    RiskIsolationService × Option String :=
  match e with
  | .equityUpdate equity limit => s.onEquityUpdate a equity limit replies
  | .tradeCompleted pnl limit => s.onTradeCompleted a pnl limit replies

end RiskIsolationService

namespace RiskEvent

/-- What an event makes of a risk state. -/
def apply : RiskEvent → RiskState → RiskState
  | .equityUpdate equity _, s => s.updateEquity equity
  | .tradeCompleted pnl _, s => s.recordTrade pnl

def ruleType : RiskEvent → String
  | .equityUpdate _ _ => "max_drawdown"
  | .tradeCompleted _ _ => "daily_loss"

def limit : RiskEvent → ℚ
  | .equityUpdate _ limit | .tradeCompleted _ limit => limit

/-- The state that results from an event is over the event's limit: the
drawdown, or the daily loss of a day in the red. -/
def Violates : RiskEvent → RiskState → Prop
  | .equityUpdate _ limit, s => limit ≤ s.totalDrawdownPercent
  | .tradeCompleted _ limit, s => limit ≤ |s.dailyPnlPercent| ∧ s.dailyPnl < 0

instance (e : RiskEvent) (s : RiskState) : Decidable (e.Violates s) := by
  cases e
  · exact inferInstanceAs (Decidable (_ ≤ _))
  · exact inferInstanceAs (Decidable (_ ∧ _))

/-- The percentage a violation states. -/
def current : RiskEvent → RiskState → ℚ
  | .equityUpdate _ _, s => s.totalDrawdownPercent
  | .tradeCompleted _ _, s => s.dailyPnlPercent

def violation (e : RiskEvent) (s : RiskState) : RiskViolation :=
  { ruleType := e.ruleType, currentValue := e.current s, limitValue := e.limit }

theorem checkViolation_of_violates {e : RiskEvent} {s : RiskState} (h : e.Violates s) :
    s.checkViolation e.ruleType e.limit = .ok (true, e.current s) := by
  cases e with
  | equityUpdate equity limit =>
    have hle : limit ≤ s.totalDrawdownPercent := h
    simp [RiskState.checkViolation, ruleType, RiskState.checkMaxDrawdown, RiskEvent.limit, current, hle]
  | tradeCompleted pnl limit =>
    have hloss : limit ≤ |s.dailyPnlPercent| ∧ s.dailyPnl < 0 := h
    simp [RiskState.checkViolation, ruleType, RiskState.checkDailyLossLimit, RiskEvent.limit, current,
      hloss.1, hloss.2]

end RiskEvent

namespace RiskIsolationService

variable {s : RiskIsolationService} {a : String} {e : RiskEvent} {v : RiskViolation}
  {replies : HandlerReplies}

/-- A violation was recorded, and the account is not trading. -/
def Handled (before after : RiskIsolationService) (a : String) (v : RiskViolation) : Prop :=
  after.riskRegistry.violations = before.riskRegistry.violations ++ [(a, v)] ∧
    after.accountManager.status a ≠ some .active

/-- What the pause of an account needs: it is configured and active, and
no call up to the alert raises. -/
def Pausable (m : AccountManager) (a : String) (replies : HandlerReplies) : Prop :=
  a ∈ m.accounts ∧ m.status a = some .active ∧ replies.status = none ∧
    replies.pause = .completes ∧ replies.alert = .completes

/-- The push is executed. -/
def Pushed (reply : WriteReply) : Prop := ∀ x, reply ≠ .fails x

/-- The two handlers are one: update, then check. -/
theorem handle_eq :
    s.handle a e replies =
      match RiskRegistry.updateManager e.apply s.riskRegistry a replies.toUpdateReplies with
      | (r, some x) => ({ s with riskRegistry := r }, some x)
      | (r, none) => checkAndPause { s with riskRegistry := r } a e.ruleType e.limit replies := by
  cases e <;> rfl

theorem check_pauseForRuleViolation (v : RiskViolation) (status : Option AccountState) :
    (Operation.pauseForRuleViolation v.ruleType v.currentValue v.limitValue).check a status = .ok true ∧
        status = some .active ∨
      (∃ x, (Operation.pauseForRuleViolation v.ruleType v.currentValue v.limitValue).check a status =
        .error x) ∧ status ≠ some .active := by
  rcases status with _ | s
  · exact .inr ⟨⟨_, rfl⟩, by simp⟩
  · cases s with
    | active => exact .inl ⟨rfl, rfl⟩
    | paused => exact .inr ⟨⟨_, rfl⟩, by simp⟩
    | stopped => exact .inr ⟨⟨_, rfl⟩, by simp⟩
    | error => exact .inr ⟨⟨_, rfl⟩, by simp⟩

/-- **The pause returns exactly for an active account** whose calls all
complete, and then the account is paused. -/
theorem pauseForRuleViolation_returns_iff {m : AccountManager} :
    (m.pauseForRuleViolation a v replies).2 = none ↔ Pausable m a replies := by
  by_cases ha : a ∈ m.accounts
  · cases hs : replies.status with
    | some x => simp [AccountManager.pauseForRuleViolation, AccountManager.validateAccountExists,
        Pausable, ha, hs]
    | none =>
      rcases check_pauseForRuleViolation (a := a) v (m.status a) with ⟨hc, hact⟩ | ⟨⟨x, hc⟩, hact⟩
      · rw [hact] at hc
        cases hp : replies.pause <;> cases hal : replies.alert <;>
          simp [AccountManager.pauseForRuleViolation, AccountManager.validateAccountExists,
            Pausable, ha, hs, hc, hact, hp, hal]
      · simp [AccountManager.pauseForRuleViolation, AccountManager.validateAccountExists,
          Pausable, ha, hs, hc, hact]
  · simp [AccountManager.pauseForRuleViolation, AccountManager.validateAccountExists, Pausable, ha]

theorem pauseForRuleViolation_status {m : AccountManager} (h : Pausable m a replies) :
    (m.pauseForRuleViolation a v replies).1.status a = some .paused := by
  obtain ⟨ha, hact, hs, hp, hal⟩ := h
  have hc : (Operation.pauseForRuleViolation v.ruleType v.currentValue v.limitValue).check a
      (some .active) = .ok true := rfl
  simp [AccountManager.pauseForRuleViolation, AccountManager.validateAccountExists, ha, hs, hact, hc,
    hp, hal, Operation.alert, Operation.target]

/-- The violation is listed exactly when the pause returned and the push
was executed. -/
theorem pauseForViolation_handled_iff :
    Handled s (s.pauseForViolation a v replies).1 a v ↔
      Pausable s.accountManager a replies ∧ Pushed replies.record := by
  by_cases hp : Pausable s.accountManager a replies
  · have hret := (pauseForRuleViolation_returns_iff (v := v)).mpr hp
    have hstatus := pauseForRuleViolation_status (v := v) hp
    unfold pauseForViolation
    generalize s.accountManager.pauseForRuleViolation a v replies = paused at hret hstatus
    obtain ⟨m, raised⟩ := paused
    obtain rfl : raised = none := hret
    have hpaused : m.status a = some .paused := hstatus
    cases replies.record <;> simp [Handled, RiskRegistry.recordViolation, hpaused, hp, Pushed]
  · have hret := mt (pauseForRuleViolation_returns_iff (v := v)).mp hp
    obtain ⟨x, hx⟩ := Option.ne_none_iff_exists'.mp hret
    unfold pauseForViolation
    generalize s.accountManager.pauseForRuleViolation a v replies = paused at hx
    obtain ⟨m, raised⟩ := paused
    obtain rfl : raised = some x := hx
    simp [Handled, hp]

/-- What the update of a handler needs. -/
def Updates (r : RiskRegistry) (a : String) (replies : HandlerReplies) : Prop :=
  r.Loads a replies.load ∧ replies.save = .completes ∧ replies.expire = none

/-- After an update that returned, a violation leads to the pause. -/
theorem checkAndPause_of_violates {st : RiskState} (hm : s.riskRegistry.managers a = some st)
    (hv : e.Violates st) :
    s.checkAndPause a e.ruleType e.limit replies = s.pauseForViolation a (e.violation st) replies := by
  simp only [checkAndPause, RiskRegistry.checkAccountViolation, RiskRegistry.getOrCreate, hm,
    RiskEvent.checkViolation_of_violates hv]
  rfl

/-- **A violation is recorded and the account is not trading, exactly when**
the update returns, the account is configured and was active, the pause
returns and the push is executed. -/
theorem violation_handled_iff
    (hv : e.Violates (e.apply (s.riskRegistry.riskState a))) :
    Handled s (s.handle a e replies).1 a (e.violation (e.apply (s.riskRegistry.riskState a))) ↔
      Updates s.riskRegistry a replies ∧ Pausable s.accountManager a replies ∧
        Pushed replies.record := by
  rw [handle_eq]
  have hviol := @RiskRegistry.updateManager_violations e.apply s.riskRegistry a
    replies.toUpdateReplies
  have hret := @RiskRegistry.updateManager_returns_iff e.apply s.riskRegistry a
    replies.toUpdateReplies
  by_cases hu : Updates s.riskRegistry a replies
  · have hman := @RiskRegistry.updateManager_managers e.apply s.riskRegistry a
      replies.toUpdateReplies hu.1
    generalize RiskRegistry.updateManager e.apply s.riskRegistry a replies.toUpdateReplies =
      updated at hviol hret hman
    obtain ⟨r, raised⟩ := updated
    obtain rfl : raised = none := hret.mpr hu
    have hsame : r.violations = s.riskRegistry.violations := hviol
    have hpause := @pauseForViolation_handled_iff { s with riskRegistry := r } a
      (e.violation (e.apply (s.riskRegistry.riskState a))) replies
    simp only [checkAndPause_of_violates (s := { s with riskRegistry := r }) hman hv]
    simp only [Handled, hsame] at hpause ⊢
    simp only [hpause, hu, true_and]
  · have hraised := mt hret.mp hu
    obtain ⟨x, hx⟩ := Option.ne_none_iff_exists'.mp hraised
    generalize RiskRegistry.updateManager e.apply s.riskRegistry a replies.toUpdateReplies =
      updated at hviol hx
    obtain ⟨r, raised⟩ := updated
    obtain rfl : raised = some x := hx
    have hsame : r.violations = s.riskRegistry.violations := hviol
    simp [Handled, hsame, hu]

/-- The account `ftmo-001` with a day that started at 100000. -/
def ftmoService (status : AccountState) (violations : List (String × RiskViolation) := []) :
    RiskIsolationService :=
  { accountManager :=
      { accounts := ["ftmo-001"], status := Function.update (fun _ => none) "ftmo-001" (some status) }
    riskRegistry :=
      { managers := Function.update (fun _ => none) "ftmo-001"
          (some { dailyStartingBalance := 100000 })
        violations } }

/-- A loss of 6% or 7% is over a limit of 5%. -/
theorem tradeCompleted_violates {status : AccountState} {violations : List (String × RiskViolation)}
    {pnl : ℚ} (h : pnl ≤ -5000) :
    (RiskEvent.tradeCompleted pnl 5).Violates
      ((RiskEvent.tradeCompleted pnl 5).apply
        ((ftmoService status violations).riskRegistry.riskState "ftmo-001")) := by
  have hpct : pnl / 100000 * 100 ≤ -5 := by linarith
  have habs : 5 ≤ |pnl / 100000 * 100| := by
    rw [abs_of_nonpos (by linarith)]
    linarith
  refine ⟨?_, ?_⟩
  · simpa [RiskEvent.apply, RiskState.recordTrade, ftmoService, RiskRegistry.riskState] using habs
  · simp only [RiskEvent.apply, RiskState.recordTrade, ftmoService, RiskRegistry.riskState,
      Function.update_self]
    norm_num
    linarith

/-- An active account that loses 6% is paused, and the loss is listed. -/
theorem violation_handled_iff_active :
    Handled (ftmoService .active)
      ((ftmoService .active).handle "ftmo-001" (.tradeCompleted (-6000) 5) {}).1 "ftmo-001"
      { ruleType := "daily_loss", currentValue := -6, limitValue := 5 } := by
  have hcurrent : ((RiskEvent.tradeCompleted (-6000) 5).violation
      ((RiskEvent.tradeCompleted (-6000) 5).apply
        ((ftmoService .active).riskRegistry.riskState "ftmo-001"))) =
      { ruleType := "daily_loss", currentValue := -6, limitValue := 5 } := by
    decide +kernel
  rw [← hcurrent]
  refine (violation_handled_iff (tradeCompleted_violates (by norm_num))).mpr
    ⟨⟨fun _ => rfl, rfl, rfl⟩, ⟨by decide, by decide, rfl, rfl, rfl⟩, ?_⟩
  intro x hx
  cases hx

/-- A second loss of an account that is already paused is not listed: the
handler raises. -/
theorem repeated_violation_unrecorded :
    let s := ftmoService .paused [("ftmo-001", ⟨"daily_loss", -6, 5⟩)]
    (RiskEvent.tradeCompleted (-7000) 5).Violates
        ((RiskEvent.tradeCompleted (-7000) 5).apply (s.riskRegistry.riskState "ftmo-001")) ∧
      (s.handle "ftmo-001" (.tradeCompleted (-7000) 5) {}).1.riskRegistry.violations =
        [("ftmo-001", ⟨"daily_loss", -6, 5⟩)] ∧
      (s.handle "ftmo-001" (.tradeCompleted (-7000) 5) {}).2 =
        some (Operation.transitionError "ftmo-001" .paused .paused) := by
  intro s
  have hv := @tradeCompleted_violates .paused [("ftmo-001", ⟨"daily_loss", -6, 5⟩)] (-7000)
    (by norm_num)
  let r := (RiskRegistry.recordAccountTrade s.riskRegistry "ftmo-001" (-7000) {}).1
  have hcheck : s.handle "ftmo-001" (.tradeCompleted (-7000) 5) {} =
      pauseForViolation { s with riskRegistry := r } "ftmo-001"
        ((RiskEvent.tradeCompleted (-7000) 5).violation (r.riskState "ftmo-001")) {} :=
    checkAndPause_of_violates (s := { s with riskRegistry := r }) rfl hv
  rw [hcheck]
  exact ⟨hv, rfl, rfl⟩

end RiskIsolationService

end TdSandboxed
