/-
TdSandboxed.Backtesting.PropFirmActor — the compliance tracker of a
backtest (`backtesting/prop_firm_actor.py`,
`backtesting/account_state_builder.py`).

On each bar the actor reads the equity, rolls its day over, and runs the
rules on a context of its own making. Dates are numbers of days since the
epoch. The timezone of a session is the offset in seconds it has at a
time; a session id, which the source prints, is the local date.

The profit history keeps the completed days; the sum it caches for others
is left out. So is the wiring to the event loop: an equity of `none` is
what `_read_equity` answers during warm-up.
-/
import TdSandboxed.Rules.Engine

namespace TdSandboxed

/-- `build_account_state` of the backtest: derived metrics for a balance
and an equity. -/
def AccountStateBuilder.buildAccountState
    (balance equity initialBalance peakBalance dailyPnl : ℚ) : Dict :=
  let dailyPnlPercent := if 0 < initialBalance then dailyPnl / initialBalance * 100 else 0
  let totalDrawdownPercent :=
    if 0 < peakBalance ∧ equity < peakBalance then (peakBalance - equity) / peakBalance * 100 else 0
  [("balance", .num balance), ("equity", .num equity), ("initial_balance", .num initialBalance),
   ("peak_balance", .num peakBalance), ("daily_pnl", .num dailyPnl),
   ("daily_pnl_percent", .num dailyPnlPercent),
   ("total_drawdown_percent", .num totalDrawdownPercent),
   ("open_positions_count", .num 0), ("total_exposure", .num 0)]

structure BreachEvent where
  ts : ℤ
  ruleName : String
  currentValue : ℚ
  thresholdValue : ℚ
  message : String
  deriving DecidableEq

structure PropFirmComplianceActorConfig where
  accountId : String
  initialBalance : ℚ
  /-- The offset of `daily_session_tz` from UTC, in seconds, at a time. -/
  sessionOffset : ℤ → ℤ := fun _ => 0

/-- Seconds of a day. -/
def daySeconds : ℤ := 86400

/-- The UTC date of a time in seconds. -/
def utcDate (ts : ℤ) : ℤ := ts / daySeconds

def PropFirmComplianceActorConfig.sessionId (config : PropFirmComplianceActorConfig) (ts : ℤ) : ℤ :=
  utcDate (ts + config.sessionOffset ts)

structure Bar where
  /-- Nanoseconds since the epoch. -/
  tsInit : ℤ
  deriving DecidableEq

/-- `bar.ts_init // 1_000_000_000` -/
def Bar.ts (bar : Bar) : ℤ := bar.tsInit / 1000000000

structure PropFirmComplianceActor where
  breaches : List BreachEvent := []
  dedup : List (ℤ × String) := []
  equityCurve : List (ℤ × ℚ) := []
  peakBalance : ℚ
  currentDay : Option ℤ := none
  dayOpenBalance : ℚ
  lastDailyPnl : ℚ := 0
  profitHistory : List (ℤ × ℚ) := []

namespace PropFirmComplianceActor

def init (config : PropFirmComplianceActorConfig) : PropFirmComplianceActor :=
  { peakBalance := config.initialBalance, dayOpenBalance := config.initialBalance }

def recordEquity (s : PropFirmComplianceActor) (ts : ℤ) (equity : ℚ) : PropFirmComplianceActor :=
  { s with
    equityCurve := s.equityCurve ++ [(ts, equity)]
    peakBalance := if s.peakBalance < equity then equity else s.peakBalance }

/-- Insert or replace a finished day. -/
def registerCompletedDay (s : PropFirmComplianceActor) (day : ℤ) (dailyPnl : ℚ) :
    PropFirmComplianceActor :=
  { s with
    profitHistory :=
      if (s.profitHistory.lookup day).isSome then
        s.profitHistory.map fun p => if p.1 = day then (day, dailyPnl) else p
      else s.profitHistory ++ [(day, dailyPnl)] }

def dailyProfitsHistory (s : PropFirmComplianceActor) : Value :=
  .history (s.profitHistory.map fun p => (p.1, some p.2))

/-- The day-open balance moves when the UTC date does. -/
def rollDay (s : PropFirmComplianceActor) (barDate : ℤ) (equity : ℚ) : PropFirmComplianceActor :=
  match s.currentDay with
  | none => { s with currentDay := some barDate, dayOpenBalance := equity }
  | some day =>
    if barDate ≠ day then
      { s.registerCompletedDay day s.lastDailyPnl with
        currentDay := some barDate, dayOpenBalance := equity, lastDailyPnl := 0 }
    else s

/-- The account state of a bar, after the day was rolled. -/
def accountState (config : PropFirmComplianceActorConfig) (s : PropFirmComplianceActor)
    (equity : ℚ) : Dict :=
  let dailyPnl := equity - s.dayOpenBalance
  (AccountStateBuilder.buildAccountState equity equity config.initialBalance s.peakBalance
      dailyPnl).update
    [("current_day_pnl", .num dailyPnl), ("daily_profits_history", s.dailyProfitsHistory)]

/-- The context the rules are evaluated in: the state's keys come last. -/
def context (config : PropFirmComplianceActorConfig) (accountState : Dict) (ts : ℤ) : Dict :=
  Dict.update
    [("account_id", .str config.accountId), ("timestamp", .time ts),
     ("signal", .object "_BarSignal" true), ("symbol", .none), ("side", .none),
     ("quantity", .num 0), ("current_balance", accountState.getD "balance" (.num 0)),
     ("current_equity", accountState.getD "equity" (.num 0))]
    accountState

def evaluateCompliance (config : PropFirmComplianceActorConfig) (ruleEngine : RuleEngine)
    (accountState : Dict) (ts : ℤ) : List BreachEvent :=
  let result := ruleEngine.validate (context config accountState ts) true
  (result.allResults.filter fun p => p.2.action = .block).map fun (rule, ruleResult) =>
    { ts
      ruleName := rule.name
      currentValue := ruleResult.currentValue.getD 0
      thresholdValue := ruleResult.thresholdValue.getD 0
      message := pyOr ruleResult.message "rule blocked" }

/-- One breach for each rule and session. -/
def recordBreach (sessionId : ℤ) (s : PropFirmComplianceActor) (event : BreachEvent) :
    PropFirmComplianceActor :=
  let key := (sessionId, event.ruleName)
  if key ∈ s.dedup then s
  else { s with dedup := key :: s.dedup, breaches := s.breaches ++ [event] }

def recordComplianceCheck (config : PropFirmComplianceActorConfig) (ruleEngine : RuleEngine)
    (s : PropFirmComplianceActor) (accountState : Dict) (ts : ℤ) : PropFirmComplianceActor :=
  (evaluateCompliance config ruleEngine accountState ts).foldl (recordBreach (config.sessionId ts)) s

/-- The state in which a bar's context is built. -/
def observe (s : PropFirmComplianceActor) (bar : Bar) (equity : ℚ) : PropFirmComplianceActor :=
  let s := (s.recordEquity bar.ts equity).rollDay (utcDate bar.ts) equity
  { s with lastDailyPnl := equity - s.dayOpenBalance }

def onBar (config : PropFirmComplianceActorConfig) (ruleEngine : RuleEngine)
    (s : PropFirmComplianceActor) (bar : Bar) : Option ℚ → PropFirmComplianceActor
  | none => s
  | some equity =>
    let s := s.observe bar equity
    s.recordComplianceCheck config ruleEngine (s.accountState config equity) bar.ts

/-- Flush the final trading day. -/
def onStop (s : PropFirmComplianceActor) : PropFirmComplianceActor :=
  match s.currentDay with
  | none => s
  | some day =>
    { s.registerCompletedDay day s.lastDailyPnl with currentDay := none, lastDailyPnl := 0 }

/-- Recording breaches touches the log alone. -/
structure SameBooks (s t : PropFirmComplianceActor) : Prop where
  peakBalance : t.peakBalance = s.peakBalance
  currentDay : t.currentDay = s.currentDay
  dayOpenBalance : t.dayOpenBalance = s.dayOpenBalance

theorem recordBreach_sameBooks (sessionId : ℤ) (s : PropFirmComplianceActor) (event : BreachEvent) :
    SameBooks s (recordBreach sessionId s event) := by
  unfold recordBreach
  dsimp only
  split <;> exact ⟨rfl, rfl, rfl⟩

theorem foldl_recordBreach_sameBooks (sessionId : ℤ) (events : List BreachEvent)
    (s : PropFirmComplianceActor) : SameBooks s (events.foldl (recordBreach sessionId) s) := by
  induction events generalizing s with
  | nil => exact ⟨rfl, rfl, rfl⟩
  | cons event events ih =>
    have hone := recordBreach_sameBooks sessionId s event
    have hrest := ih (recordBreach sessionId s event)
    exact ⟨hrest.peakBalance.trans hone.peakBalance, hrest.currentDay.trans hone.currentDay,
      hrest.dayOpenBalance.trans hone.dayOpenBalance⟩

/-- What a bar leaves of the books does not depend on the rules. -/
theorem onBar_sameBooks (config : PropFirmComplianceActorConfig) (ruleEngine : RuleEngine)
    (s : PropFirmComplianceActor) (bar : Bar) (equity : ℚ) :
    SameBooks (s.observe bar equity) (s.onBar config ruleEngine bar (some equity)) :=
  foldl_recordBreach_sameBooks _ _ _

/-- Recording breaches keeps the history too. -/
theorem foldl_recordBreach_eq (sessionId : ℤ) (events : List BreachEvent)
    (s : PropFirmComplianceActor) :
    ∃ dedup breaches, events.foldl (recordBreach sessionId) s =
      { s with dedup := dedup, breaches := breaches } := by
  induction events generalizing s with
  | nil => exact ⟨s.dedup, s.breaches, rfl⟩
  | cons event events ih =>
    have hone : ∃ dedup breaches, recordBreach sessionId s event =
        { s with dedup := dedup, breaches := breaches } := by
      unfold recordBreach
      dsimp only
      split
      · exact ⟨s.dedup, s.breaches, rfl⟩
      · exact ⟨_, _, rfl⟩
    obtain ⟨dedup, breaches, hone⟩ := hone
    obtain ⟨dedup', breaches', hrest⟩ := ih (recordBreach sessionId s event)
    refine ⟨dedup', breaches', ?_⟩
    rw [List.foldl_cons, hrest, hone]

/-- A day that is not in the history yet is put at its end. -/
theorem registerCompletedDay_of_new {s : PropFirmComplianceActor} {day : ℤ} (dailyPnl : ℚ)
    (hnew : ∀ pnl, (day, pnl) ∉ s.profitHistory) :
    (s.registerCompletedDay day dailyPnl).profitHistory = s.profitHistory ++ [(day, dailyPnl)] := by
  have hnone : s.profitHistory.lookup day = none := by
    rw [List.lookup_eq_none_iff]
    intro p hp
    have hne : p.1 ≠ day := fun h => hnew p.2 (h ▸ hp)
    simpa using hne.symm
  unfold registerCompletedDay
  simp [hnone]

end PropFirmComplianceActor

end TdSandboxed
