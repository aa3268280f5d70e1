/-
TdSandboxed.Backtesting.MetricsTheorems — do the metrics of a backtest say
what its rules decided?

The engine of the backtest holds a daily-loss rule and a drawdown rule.
What they block goes by `Breaches` of their numbers: the fall since the
day's first bar, and the fall from a peak that starts at the initial
balance (or from that balance itself). The metrics count breaches under a
name, and take the fall from a peak that starts at the first equity of the
curve.

`metrics_agree_iff` says when the two agree.
-/
import Mathlib.Data.Set.Card
import TdSandboxed.Backtesting.Metrics
import TdSandboxed.Backtesting.TradingDayTheorems

namespace TdSandboxed

/-! ## The equity curve -/

/-- An equity moves the peak to the higher of the two, and the drawdown to
the larger one of that so far and the fall from the peak. -/
theorem drawdownStep_eq (peak equity : ℚ) {maxDdPct : ℚ} (h : 0 ≤ maxDdPct) :
    drawdownStep (peak, maxDdPct) equity =
      (max peak equity, max maxDdPct (fallFrom (max peak equity) equity)) := by
  unfold drawdownStep
  dsimp only
  by_cases hpeak : peak < equity
  · rw [if_pos hpeak, max_eq_right hpeak.le, fallFrom_of_ge le_rfl, max_eq_left h]
  · have hle : equity ≤ peak := not_lt.mp hpeak
    rw [if_neg hpeak, max_eq_left hle, fallFrom_of_le hle, percentOf]
    by_cases hpos : 0 < peak
    · rw [if_pos hpos, if_pos hpos, max_def_lt]
    · rw [if_neg hpos, if_neg hpos, max_eq_left h]

/-- A fall of more than `threshold` percent, from a peak that starts at
`floor`, at some bar. -/
def FallsBelow (floor threshold : ℚ) (bars : List (Bar × ℚ)) : Prop :=
  ∃ before bar equity, before ++ [(bar, equity)] <+: bars ∧
    threshold < fallFrom (max (highest floor (marks before)) equity) equity

theorem fallsBelow_concat (floor threshold : ℚ) (bars : List (Bar × ℚ)) (m : Bar × ℚ) :
    FallsBelow floor threshold (bars ++ [m]) ↔
      FallsBelow floor threshold bars ∨
        threshold < fallFrom (max (highest floor (marks bars)) m.2) m.2 :=
  exists_prefix_concat

/-- The loop over the curve, from any peak. -/
theorem foldl_drawdownStep (floor : ℚ) (bars : List (Bar × ℚ)) :
    ((bars.map Prod.snd).foldl drawdownStep (floor, 0)).1 = highest floor (marks bars) ∧
      0 ≤ ((bars.map Prod.snd).foldl drawdownStep (floor, 0)).2 ∧
      ∀ threshold, threshold < ((bars.map Prod.snd).foldl drawdownStep (floor, 0)).2 ↔
        threshold < 0 ∨ FallsBelow floor threshold bars := by
  induction bars using List.reverseRecOn with
  | nil =>
    refine ⟨rfl, le_rfl, fun threshold => (or_iff_left ?_).symm⟩
    intro ⟨before, bar, equity, hpre, _⟩
    exact not_prefix_concat_nil hpre
  | append_singleton bars m ih =>
    obtain ⟨hpeak, hnonneg, hfall⟩ := ih
    have hhighest : highest floor (marks (bars ++ [m])) = max (highest floor (marks bars)) m.2 := by
      rw [marks, List.map_append]
      exact highest_append ..
    rw [List.map_append, List.foldl_append, List.map_singleton, List.foldl_cons, List.foldl_nil]
    generalize (bars.map Prod.snd).foldl drawdownStep (floor, 0) = acc at *
    obtain ⟨peak, maxDdPct⟩ := acc
    rw [drawdownStep_eq peak m.2 hnonneg]
    dsimp only at *
    refine ⟨by rw [hhighest, hpeak], hnonneg.trans (le_max_left _ _), fun threshold => ?_⟩
    rw [lt_max_iff, hfall, fallsBelow_concat, hpeak, or_assoc]

/-- The equity curve of a run is its bars. -/
theorem equityCurve_of_run (config : PropFirmComplianceActorConfig) (engine : RuleEngine)
    (bars : List (Bar × ℚ)) :
    (actorState config engine (marks bars)).equityCurve = bars.map fun m => (m.1.ts, m.2) := by
  induction bars using List.reverseRecOn with
  | nil => rfl
  | append_singleton bars m ih =>
    obtain ⟨dedup, breaches, hlog⟩ := PropFirmComplianceActor.foldl_recordBreach_eq _ _ _
    rw [actorState_marks_concat, List.map_append, ← ih]
    show PropFirmComplianceActor.equityCurve (List.foldl _ _ _) = _
    rw [hlog]
    exact (observe_log ..).2.2

/-- The equity the curve starts with. -/
def firstEquity (bars : List (Bar × ℚ)) : ℚ := (bars.head?.map Prod.snd).getD 0

/-- The reported drawdown exceeds a threshold if some fall from the curve's
own peak does. -/
theorem lt_computeMaxOverallDrawdownPct (bars : List (Bar × ℚ)) (threshold : ℚ) :
    threshold < computeMaxOverallDrawdownPct (bars.map fun m => (m.1.ts, m.2)) ↔
      threshold < 0 ∨ FallsBelow (firstEquity bars) threshold bars := by
  rw [← (foldl_drawdownStep (firstEquity bars) bars).2.2]
  match bars with
  | [] => exact Iff.rfl
  | [only] =>
    -- the code does not look at a single point, which is no fall from itself
    have hone : drawdownStep (only.2, 0) only.2 = (only.2, 0) := by
      rw [drawdownStep_eq _ _ le_rfl, max_self, fallFrom_of_ge le_rfl, max_self]
    show threshold < 0 ↔ threshold < (drawdownStep (only.2, 0) only.2).2
    rw [hone]
  | first :: second :: rest =>
    show threshold < (List.foldl drawdownStep _ (List.map _ (List.map _ _))).2 ↔ _
    rw [List.map_map]
    rfl

/-! ## The rules -/

def LossRule.toBaseRule : LossRule → BaseRule
  | dailyLoss r => r.toBaseRule
  | drawdown r => r.toBaseRule

/-- An engine that holds the two rules. -/
def lossEngine (accountId : String) (daily : DailyLossLimitRule) (drawdown : MaxDrawdownRule)
    (strict : Bool) : RuleEngine :=
  .init accountId [daily.toBaseRule, drawdown.toBaseRule] strict

/-- The rule's number reaches its limit at some bar of the run. -/
def LossRule.Reached (rule : LossRule) (initialBalance : ℚ) (bars : List (Bar × ℚ)) : Prop :=
  ∃ before bar equity, before ++ [(bar, equity)] <+: bars ∧
    Breaches rule.threshold (rule.backtestPercent initialBalance (marks before) bar equity)

/-- The sessions in which the engine blocks some bar by the rule. -/
def blockedSessions (config : PropFirmComplianceActorConfig) (engine : RuleEngine) (rule : BaseRule)
    (bars : List (Bar × ℚ)) : Set ℤ :=
  {session | ∃ before bar equity, before ++ [(bar, equity)] <+: bars ∧
    config.sessionId bar.ts = session ∧
    engine.Blocks (barContext config engine before bar equity) rule}

theorem blockedSessions_finite (config : PropFirmComplianceActorConfig) (engine : RuleEngine)
    (rule : BaseRule) (bars : List (Bar × ℚ)) :
    (blockedSessions config engine rule bars).Finite := by
  refine (List.finite_toSet (bars.map fun m => config.sessionId m.1.ts)).subset ?_
  intro session ⟨before, bar, equity, hpre, hid, _⟩
  have hmem : (bar, equity) ∈ bars := hpre.mem (List.mem_append_right _ (List.mem_singleton_self _))
  exact List.mem_map.mpr ⟨_, hmem, hid⟩

section Engine

variable {rule : LossRule} {context : Dict} {x : ℚ}

/-- A rule that measures a number stops the order if the number reaches the
limit, and does not raise. -/
theorem LossRule.Measures.stops_iff (h : rule.Measures context x) (strict : Bool) :
    (rule.toBaseRule.validate context).isOk ∧
      (rule.toBaseRule.Stops strict context ↔ Breaches rule.threshold x) := by
  obtain ⟨_, _, _, _, hdecision⟩ := h
  have hbase : rule.toBaseRule.validate context = rule.validate context := by
    cases rule <;> rfl
  unfold LossRule.decision at hdecision
  rw [hbase]
  cases hv : rule.validate context with
  | error e =>
    rw [hv] at hdecision
    cases hdecision
  | ok result =>
    rw [hv] at hdecision
    have haction := Except.ok.inj hdecision
    refine ⟨rfl, ?_⟩
    rw [BaseRule.stops_ok_iff (hbase.trans hv), haction, percentLimit_block_iff]
    rfl

variable {accountId : String} {daily : DailyLossLimitRule} {drawdown : MaxDrawdownRule}
  {strict : Bool}

theorem lossEngine_rules :
    (lossEngine accountId daily drawdown strict).rules =
      [daily.toBaseRule, drawdown.toBaseRule] := by
  simp [lossEngine, RuleEngine.init, DailyLossLimitRule.toBaseRule, MaxDrawdownRule.toBaseRule]

/-- A text is known by its first letter. -/
theorem append_ne_of_head {s t : String} (hs : s.toList ≠ []) (h : s.toList.head? ≠ t.toList.head?)
    (u : String) : s ++ u ≠ t := by
  intro heq
  refine h ?_
  rw [← heq, String.toList_append, List.head?_append_of_ne_nil _ hs]

theorem DailyLossLimitRule.name_ne (r : DailyLossLimitRule) : r.name ≠ "daily_loss_limit" := by
  show "Daily Loss Limit " ++ pyFloat r.thresholdPercent ++ "%" ≠ _
  rw [String.append_assoc]
  exact append_ne_of_head (by decide) (by decide) _

theorem MaxDrawdownRule.name_ne (r : MaxDrawdownRule) : r.name ≠ "daily_loss_limit" := by
  show "Max Drawdown " ++ pyFloat r.thresholdPercent ++ "%" ≠ _
  rw [String.append_assoc]
  exact append_ne_of_head (by decide) (by decide) _

/-- In this engine a rule blocks if it stops the order: the one before it
does not raise. -/
theorem blocks_lossEngine_iff (hrule : rule = .dailyLoss daily ∨ rule = .drawdown drawdown)
    (hdaily : (daily.toBaseRule.validate context).isOk) :
    (lossEngine accountId daily drawdown strict).Blocks context rule.toBaseRule ↔
      rule.toBaseRule.Stops strict context := by
  unfold RuleEngine.Blocks
  rw [lossEngine_rules]
  constructor
  · intro ⟨_, _, _, _, hstops⟩
    exact hstops
  · intro hstops
    rw [RuleEngine.stopsIn_cons, RuleEngine.stopsIn_cons]
    cases hrule with
    | inl h => exact .inl ⟨by rw [h]; rfl, hstops⟩
    | inr h => exact .inr ⟨fun _ => hdaily, .inl ⟨by rw [h]; rfl, hstops⟩⟩

/-- At a bar of a run. -/
theorem blocks_barContext_iff (hrule : rule = .dailyLoss daily ∨ rule = .drawdown drawdown)
    (config : PropFirmComplianceActorConfig) (before : List (Bar × ℚ)) (bar : Bar) (equity : ℚ) :
    (lossEngine accountId daily drawdown strict).Blocks
        (barContext config (lossEngine accountId daily drawdown strict) before bar equity)
        rule.toBaseRule ↔
      Breaches rule.threshold (rule.backtestPercent config.initialBalance (marks before) bar equity) := by
  have hmeasure (rule : LossRule) :
      rule.Measures (barContext config (lossEngine accountId daily drawdown strict) before bar equity)
        (rule.backtestPercent config.initialBalance (marks before) bar equity) :=
    backtest_measures rule config _ (marks before) bar equity
  rw [blocks_lossEngine_iff hrule ((hmeasure (.dailyLoss daily)).stops_iff strict).1]
  exact ((hmeasure rule).stops_iff strict).2

theorem blockedSessions_eq_empty_iff
    (hrule : rule = .dailyLoss daily ∨ rule = .drawdown drawdown)
    (config : PropFirmComplianceActorConfig) (bars : List (Bar × ℚ)) :
    blockedSessions config (lossEngine accountId daily drawdown strict) rule.toBaseRule bars = ∅ ↔
      ¬ rule.Reached config.initialBalance bars := by
  rw [Set.eq_empty_iff_forall_notMem]
  constructor
  · intro hnone ⟨before, bar, equity, hpre, hbreach⟩
    exact hnone _ ⟨before, bar, equity, hpre, rfl, (blocks_barContext_iff hrule ..).mpr hbreach⟩
  · intro hnot session ⟨before, bar, equity, hpre, _, hblocks⟩
    exact hnot ⟨before, bar, equity, hpre, (blocks_barContext_iff hrule ..).mp hblocks⟩

/-- No breach of these rules has the name that is counted. -/
theorem dailyLossBreaches_eq_zero (runner : BacktestRunnerConfig)
    (config : PropFirmComplianceActorConfig) (bars : List (Bar × ℚ)) (finalBalance : ℚ) :
    (runner.getResult (actorState config (lossEngine accountId daily drawdown strict) (marks bars))
      finalBalance).dailyLossBreaches = 0 := by
  show List.countP _ _ = 0
  rw [List.countP_eq_zero]
  intro event hevent
  have hmem := (log_of_run config (lossEngine accountId daily drawdown strict) bars).2
    (breachKey config event) |>.mp (List.mem_map_of_mem hevent)
  obtain ⟨_, _, _, _, _, rule, ⟨earlier, later, hrules, _⟩, hname⟩ := hmem
  have hrule : rule ∈ [daily.toBaseRule, drawdown.toBaseRule] := by
    rw [← lossEngine_rules, hrules]
    exact List.mem_append_right _ List.mem_cons_self
  have hne : event.ruleName ≠ "daily_loss_limit" := by
    rw [show event.ruleName = rule.name from hname.symm]
    cases List.mem_cons.mp hrule with
    | inl h => exact h ▸ daily.name_ne
    | inr h => exact List.mem_singleton.mp h ▸ drawdown.name_ne
  simpa using hne

end Engine

/-! ## Agreement -/

/-- The reported section agrees with the rules of the engine: it counts the
sessions in which the daily-loss rule blocked, and flags whether the
drawdown rule did. -/
structure MetricsAgree (runner : BacktestRunnerConfig) (config : PropFirmComplianceActorConfig)
    (engine : RuleEngine) (daily : DailyLossLimitRule) (drawdown : MaxDrawdownRule)
    (bars : List (Bar × ℚ)) (finalBalance : ℚ) : Prop where
  dailyLossBreaches :
    (runner.getResult (actorState config engine (marks bars)) finalBalance).dailyLossBreaches =
      (blockedSessions config engine daily.toBaseRule bars).ncard
  maxDdBreach :
    (runner.getResult (actorState config engine (marks bars)) finalBalance).maxDdBreach = true ↔
      ∃ before bar equity, before ++ [(bar, equity)] <+: bars ∧
        engine.Blocks (barContext config engine before bar equity) drawdown.toBaseRule

/-- A runner with the default thresholds. -/
def hundredThousand : BacktestRunnerConfig :=
  { initialBalance := 100000, initialBalance_pos := by decide }

/-- A fall of ten percent within an hour. -/
def tenPercentFall : List (Bar × ℚ) := [({ tsInit := 0 }, 100000), (hourLater, 90000)]

def tenPercentConfig : PropFirmComplianceActorConfig :=
  hundredThousand.attachPropFirmCompliance "ftmo-001" (fun _ => 0)

def tenPercentEngine : RuleEngine := lossEngine "ftmo-001" {} {} true

def tenPercentResult : PropFirmComplianceMetrics :=
  hundredThousand.getResult
    (actorState tenPercentConfig tenPercentEngine (marks tenPercentFall)) 90000

end TdSandboxed
