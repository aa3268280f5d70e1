/-
TdSandboxed.Backtesting.ParityTheorems — one account history, live and in a
backtest.

A history is a list of realized trades, equity marks and daily resets. Live,
trades and marks move the account's risk state and the reset starts its
day. The actor of a backtest sees the marks alone.

The numbers the rules compare have closed forms in the history:

* the daily loss is live what was realized since the reset, over the
  balance of the reset; the backtest takes the fall of the equity since the
  first mark of the UTC day, over the account's initial balance;
* the drawdown from the peak differs by where the peak starts: at zero, or
  at the initial balance;
* the drawdown from the balance starts at the balance of the last reset, or
  at the initial balance.

`parity_iff` is the comparison: a rule decides alike exactly when its two
numbers fall in one band of its limit.
-/
import TdSandboxed.Backtesting.PropFirmActor
import TdSandboxed.Execution.ReservationTheorems
import TdSandboxed.Execution.RuleContext

namespace TdSandboxed

inductive AccountEvent
  | trade (realizedPnl : ℚ)
  | mark (bar : Bar) (equity : ℚ)
  | reset (startingBalance : ℚ)
  deriving DecidableEq

namespace AccountEvent

def realized? : AccountEvent → Option ℚ
  | trade p => some p
  | _ => none

def mark? : AccountEvent → Option (Bar × ℚ)
  | mark bar equity => some (bar, equity)
  | _ => none

def startingBalance? : AccountEvent → Option ℚ
  | reset balance => some balance
  | _ => none

end AccountEvent

/-! ## The two paths -/

def liveStep (s : RiskState) : AccountEvent → RiskState
  | .trade p => s.recordTrade p
  | .mark _ equity => s.updateEquity equity
  | .reset balance => s.resetDaily balance

/-- The risk state of an account after a history. -/
def liveState (h : List AccountEvent) : RiskState := h.foldl liveStep {}

def actorStep (config : PropFirmComplianceActorConfig) (engine : RuleEngine)
    (s : PropFirmComplianceActor) : AccountEvent → PropFirmComplianceActor
  | .mark bar equity => s.onBar config engine bar (some equity)
  | _ => s

/-- The actor after a history. -/
def actorState (config : PropFirmComplianceActorConfig) (engine : RuleEngine)
    (h : List AccountEvent) : PropFirmComplianceActor :=
  h.foldl (actorStep config engine) (.init config)

/-- A rule that limits losses. -/
inductive LossRule
  | dailyLoss (r : DailyLossLimitRule)
  | drawdown (r : MaxDrawdownRule)

namespace LossRule

def validate : LossRule → Dict → Except PyException RuleResult
  | dailyLoss r => r.validate
  | drawdown r => r.validate

def threshold : LossRule → ℚ
  | dailyLoss r => r.thresholdPercent
  | drawdown r => r.thresholdPercent

def warningAt : LossRule → List ℚ
  | dailyLoss r => r.warningAt
  | drawdown r => r.warningAt

/-- What the rule decides in a context. -/
def decision (rule : LossRule) (context : Dict) : Except PyException RuleAction :=
  RuleResult.action <$> rule.validate context

end LossRule

/-- The decision for an order after a history that ends in a mark. -/
def liveDecision (rule : LossRule) (w : Wiring) (b : Books) (o : Order) (now : ℚ)
    (h : List AccountEvent) (bar : Bar) (equity : ℚ) : Except PyException RuleAction :=
  rule.decision
    (orderContext w (b.setRisk o.accountId (liveState (h ++ [.mark bar equity]))) o now)

/-- The decision of the actor at the bar of that mark. -/
def backtestDecision (rule : LossRule) (config : PropFirmComplianceActorConfig)
    (engine : RuleEngine) (h : List AccountEvent) (bar : Bar) (equity : ℚ) :
    Except PyException RuleAction :=
  let s := (actorState config engine h).observe bar equity
  rule.decision (PropFirmComplianceActor.context config (s.accountState config equity) bar.ts)

/-! ## What a history says -/

/-- The balance of the last reset, or zero. -/
def startingBalance (h : List AccountEvent) : ℚ :=
  ((h.filterMap AccountEvent.startingBalance?).getLast?).getD 0

/-- What was realized since the last reset. -/
def realizedToday (h : List AccountEvent) : ℚ :=
  ((h.reverse.takeWhile fun e => e.startingBalance?.isNone).filterMap AccountEvent.realized?).sum

/-- The highest equity, from a floor on. -/
def highest (floor : ℚ) (h : List AccountEvent) : ℚ :=
  ((h.filterMap AccountEvent.mark?).map Prod.snd).foldl max floor

/-- The marks at the end of a history that share a UTC date, latest first. -/
def marksOn (date : ℤ) (h : List AccountEvent) : List (Bar × ℚ) :=
  (h.filterMap AccountEvent.mark?).reverse.takeWhile fun m => utcDate m.1.ts = date

/-- The equity a day opened with: that of its first mark, which may be the
one at hand. -/
def dayOpen (h : List AccountEvent) (bar : Bar) (equity : ℚ) : ℚ :=
  ((marksOn (utcDate bar.ts) h).getLast?.map Prod.snd).getD equity

/-- The number a rule compares live. -/
def LossRule.livePercent (h : List AccountEvent) (equity : ℚ) : LossRule → ℚ
  | .dailyLoss _ => percentOf (startingBalance h) (-realizedToday h)
  | .drawdown r =>
    match r.method with
    | .equityPeak => fallFrom (max (highest 0 h) equity) equity
    | .balanceBased => fallFrom (startingBalance h) equity

/-- The number it compares in a backtest. -/
def LossRule.backtestPercent (initialBalance : ℚ) (h : List AccountEvent) (bar : Bar) (equity : ℚ) :
    LossRule → ℚ
  | .dailyLoss _ => percentOf initialBalance (dayOpen h bar equity - equity)
  | .drawdown r =>
    match r.method with
    | .equityPeak => fallFrom (max (highest initialBalance h) equity) equity
    | .balanceBased => fallFrom initialBalance equity

section Append

variable (h : List AccountEvent) (e : AccountEvent)

theorem startingBalance_append :
    startingBalance (h ++ [e]) = (e.startingBalance?).getD (startingBalance h) := by
  unfold startingBalance
  rw [List.filterMap_append, List.filterMap_cons, List.filterMap_nil]
  cases he : e.startingBalance? with
  | none => simp
  | some balance => simp

theorem realizedToday_append :
    realizedToday (h ++ [e]) =
      if e.startingBalance?.isSome then 0 else (e.realized?).getD 0 + realizedToday h := by
  unfold realizedToday
  rw [List.reverse_append, List.reverse_singleton, List.singleton_append]
  cases hs : e.startingBalance? with
  | some balance =>
    rw [List.takeWhile_cons_of_neg (by simp [hs])]
    simp
  | none =>
    rw [List.takeWhile_cons_of_pos (by simp [hs]), List.filterMap_cons]
    cases hr : e.realized? with
    | none => simp
    | some p => simp

theorem highest_append (floor : ℚ) :
    highest floor (h ++ [e]) =
      (e.mark?.map fun m => max (highest floor h) m.2).getD (highest floor h) := by
  unfold highest
  rw [List.filterMap_append, List.filterMap_cons, List.filterMap_nil, List.map_append,
    List.foldl_append]
  cases he : e.mark? with
  | none => simp
  | some m => simp

theorem marksOn_append_mark (date : ℤ) (bar : Bar) (equity : ℚ) :
    marksOn date (h ++ [.mark bar equity]) =
      if utcDate bar.ts = date then (bar, equity) :: marksOn date h else [] := by
  have hmarks : (h ++ [AccountEvent.mark bar equity]).filterMap AccountEvent.mark? =
      h.filterMap AccountEvent.mark? ++ [(bar, equity)] := by
    rw [List.filterMap_append]
    rfl
  unfold marksOn
  rw [hmarks, List.reverse_append, List.reverse_singleton, List.singleton_append,
    List.takeWhile_cons]
  by_cases hdate : utcDate bar.ts = date <;> simp [hdate]

theorem marksOn_append_of_no_mark (date : ℤ) (he : e.mark? = none) :
    marksOn date (h ++ [e]) = marksOn date h := by
  have hmarks : (h ++ [e]).filterMap AccountEvent.mark? = h.filterMap AccountEvent.mark? := by
    rw [List.filterMap_append, List.filterMap_cons, he, List.filterMap_nil, List.append_nil]
  unfold marksOn
  rw [hmarks]

end Append

/-! ## The risk state -/

/-- The risk state in terms of the history. -/
structure LiveFacts (h : List AccountEvent) (s : RiskState) : Prop where
  start : s.dailyStartingBalance = startingBalance h
  pnl : s.dailyPnl = realizedToday h
  percent : s.dailyPnlPercent = percentOf (startingBalance h) (realizedToday h)
  peak : s.peakEquity = highest 0 h

theorem LiveFacts.step {h : List AccountEvent} {s : RiskState} (hs : LiveFacts h s)
    (e : AccountEvent) : LiveFacts (h ++ [e]) (liveStep s e) := by
  cases e with
  | trade p =>
    have hstart : startingBalance (h ++ [.trade p]) = startingBalance h := startingBalance_append ..
    have hpnl : realizedToday (h ++ [.trade p]) = p + realizedToday h := realizedToday_append ..
    have hpeak : highest 0 (h ++ [.trade p]) = highest 0 h := highest_append ..
    show LiveFacts _ (s.recordTrade p)
    unfold RiskState.recordTrade
    dsimp only
    by_cases hpos : 0 < s.dailyStartingBalance
    · rw [if_pos hpos]
      refine ⟨hs.start.trans hstart.symm, ?_, ?_, hs.peak.trans hpeak.symm⟩
      · rw [hpnl, hs.pnl, add_comm]
      · rw [hstart, hpnl, ← hs.start, percentOf, if_pos hpos, hs.pnl, add_comm p]
    · rw [if_neg hpos]
      refine ⟨hs.start.trans hstart.symm, ?_, ?_, hs.peak.trans hpeak.symm⟩
      · rw [hpnl, hs.pnl, add_comm]
      · -- without a starting balance the percentage was zero and stays so
        rw [hs.percent, hstart, ← hs.start, percentOf, percentOf, if_neg hpos, if_neg hpos]
  | mark bar equity =>
    have hstart : startingBalance (h ++ [.mark bar equity]) = startingBalance h :=
      startingBalance_append ..
    have hpnl : realizedToday (h ++ [.mark bar equity]) = realizedToday h := by
      rw [realizedToday_append]
      exact zero_add _
    have hpeak : highest 0 (h ++ [.mark bar equity]) = max (highest 0 h) equity :=
      highest_append ..
    refine ⟨hs.start.trans hstart.symm, hs.pnl.trans hpnl.symm, ?_, ?_⟩
    · rw [hstart, hpnl]
      exact hs.percent
    · show (if s.peakEquity < equity then equity else s.peakEquity) = _
      rw [hpeak, hs.peak, max_def_lt]
  | reset balance =>
    have hstart : startingBalance (h ++ [.reset balance]) = balance := startingBalance_append ..
    have hpnl : realizedToday (h ++ [.reset balance]) = 0 := realizedToday_append ..
    have hpeak : highest 0 (h ++ [.reset balance]) = highest 0 h := highest_append ..
    refine ⟨hstart.symm, hpnl.symm, ?_, hs.peak.trans hpeak.symm⟩
    rw [hpnl]
    show (0 : ℚ) = _
    unfold percentOf
    split <;> simp

theorem liveFacts (h : List AccountEvent) : LiveFacts h (liveState h) := by
  induction h using List.reverseRecOn with
  | nil => exact ⟨rfl, rfl, rfl, rfl⟩
  | append_singleton h e ih =>
    have hstate : liveState (h ++ [e]) = liveStep (liveState h) e := by
      simp [liveState]
    rw [hstate]
    exact ih.step e

/-! ## The actor -/

/-- The actor's books in terms of the history. The day is that of the last
mark, and it opened with the first mark of that day. -/
structure ActorFacts (initialBalance : ℚ) (h : List AccountEvent) (s : PropFirmComplianceActor) :
    Prop where
  peak : s.peakBalance = highest initialBalance h
  before : s.currentDay = none → ∀ date, marksOn date h = []
  other : ∀ day ∈ s.currentDay, ∀ date, date ≠ day → marksOn date h = []
  opened : ∀ day ∈ s.currentDay, (marksOn day h).getLast?.map Prod.snd = some s.dayOpenBalance

theorem ActorFacts.dayOpen_observe {initialBalance : ℚ} {h : List AccountEvent}
    {s : PropFirmComplianceActor} (hs : ActorFacts initialBalance h s) (bar : Bar) (equity : ℚ) :
    (s.observe bar equity).dayOpenBalance = dayOpen h bar equity := by
  show ((s.recordEquity bar.ts equity).rollDay (utcDate bar.ts) equity).dayOpenBalance = _
  unfold PropFirmComplianceActor.rollDay dayOpen
  cases hday : s.currentDay with
  | none =>
    have hcurrent : (s.recordEquity bar.ts equity).currentDay = none := hday
    rw [hcurrent, hs.before hday]
    rfl
  | some day =>
    have hcurrent : (s.recordEquity bar.ts equity).currentDay = some day := hday
    rw [hcurrent]
    dsimp only
    by_cases hdate : utcDate bar.ts = day
    · rw [if_neg (not_not_intro hdate), hdate, hs.opened day hday]
      rfl
    · rw [if_pos hdate, hs.other day hday _ hdate]
      rfl

theorem currentDay_observe (s : PropFirmComplianceActor) (bar : Bar) (equity : ℚ) :
    (s.observe bar equity).currentDay = some (utcDate bar.ts) := by
  show ((s.recordEquity bar.ts equity).rollDay (utcDate bar.ts) equity).currentDay = _
  unfold PropFirmComplianceActor.rollDay
  cases hday : (s.recordEquity bar.ts equity).currentDay with
  | none => rfl
  | some day =>
    dsimp only
    by_cases hdate : utcDate bar.ts = day
    · rw [if_neg (not_not_intro hdate), hday, hdate]
    · rw [if_pos hdate]

theorem ActorFacts.peak_observe {initialBalance : ℚ} {h : List AccountEvent}
    {s : PropFirmComplianceActor} (hs : ActorFacts initialBalance h s) (bar : Bar) (equity : ℚ) :
    (s.observe bar equity).peakBalance = max (highest initialBalance h) equity := by
  have hpeak : (s.recordEquity bar.ts equity).peakBalance = max (highest initialBalance h) equity := by
    show (if s.peakBalance < equity then equity else s.peakBalance) = _
    rw [hs.peak, max_def_lt]
  show ((s.recordEquity bar.ts equity).rollDay (utcDate bar.ts) equity).peakBalance = _
  unfold PropFirmComplianceActor.rollDay
  split
  · exact hpeak
  · split
    · exact hpeak
    · exact hpeak

theorem ActorFacts.step {config : PropFirmComplianceActorConfig} {engine : RuleEngine}
    {initialBalance : ℚ} {h : List AccountEvent} {s : PropFirmComplianceActor}
    (hs : ActorFacts initialBalance h s) (e : AccountEvent) :
    ActorFacts initialBalance (h ++ [e]) (actorStep config engine s e) := by
  have hidle (he : e.mark? = none) : ActorFacts initialBalance (h ++ [e]) s := by
    refine ⟨?_, ?_, ?_, ?_⟩
    · rw [highest_append, he]
      exact hs.peak
    · simpa only [marksOn_append_of_no_mark h e _ he] using hs.before
    · simpa only [marksOn_append_of_no_mark h e _ he] using hs.other
    · simpa only [marksOn_append_of_no_mark h e _ he] using hs.opened
  cases e with
  | trade p => exact hidle rfl
  | reset balance => exact hidle rfl
  | mark bar equity =>
    have hbooks := s.onBar_sameBooks config engine bar equity
    have hday : (s.onBar config engine bar (some equity)).currentDay = some (utcDate bar.ts) := by
      rw [hbooks.currentDay, currentDay_observe]
    show ActorFacts _ _ (s.onBar config engine bar (some equity))
    refine ⟨?_, ?_, ?_, ?_⟩
    · rw [hbooks.peakBalance, hs.peak_observe, highest_append]
      rfl
    · intro hnone
      rw [hday] at hnone
      cases hnone
    · intro day hmem date hne
      rw [hday] at hmem
      obtain rfl := Option.mem_some.mp hmem
      rw [marksOn_append_mark, if_neg hne.symm]
    · intro day hmem
      rw [hday] at hmem
      obtain rfl := Option.mem_some.mp hmem
      rw [marksOn_append_mark, if_pos rfl, List.getLast?_cons, hbooks.dayOpenBalance,
        hs.dayOpen_observe, dayOpen]
      cases (marksOn (utcDate bar.ts) h).getLast? <;> rfl

theorem actorFacts (config : PropFirmComplianceActorConfig) (engine : RuleEngine)
    (h : List AccountEvent) : ActorFacts config.initialBalance h (actorState config engine h) := by
  induction h using List.reverseRecOn with
  | nil =>
    refine ⟨rfl, fun _ _ => rfl, ?_, ?_⟩
    · rintro day ⟨⟩
    · rintro day ⟨⟩
  | append_singleton h e ih =>
    have hstate : actorState config engine (h ++ [e]) =
        actorStep config engine (actorState config engine h) e := by
      simp [actorState]
    rw [hstate]
    exact ih.step e

/-! ## The rules on both sides -/

/-- The rule answers as its limit does for `x`, with texts of its own. -/
def LossRule.Measures (rule : LossRule) (context : Dict) (x : ℚ) : Prop :=
  ∃ bm wm bd wd, rule.decision context =
    .ok (percentLimit rule.threshold rule.warningAt x bm wm bd wd).action

theorem LossRule.decision_eq_iff {rule : LossRule} {c c' : Dict} {x y : ℚ}
    (hx : rule.Measures c x) (hy : rule.Measures c' y) :
    rule.decision c = rule.decision c' ↔ SameBand rule.threshold rule.warningAt x y := by
  obtain ⟨_, _, _, _, hx⟩ := hx
  obtain ⟨_, _, _, _, hy⟩ := hy
  rw [hx, hy, Except.ok.injEq, percentLimit_action_eq_iff]

theorem measures_dailyLoss {r : DailyLossLimitRule} {c : Dict} {p : ℚ}
    (h : c.getD "daily_pnl_percent" (.num 0) = .num p) :
    (LossRule.dailyLoss r).Measures c (-p) := by
  unfold LossRule.Measures LossRule.decision
  show ∃ bm wm bd wd, RuleResult.action <$> r.validate c = _
  unfold DailyLossLimitRule.validate
  rw [h]
  exact ⟨_, _, _, _, rfl⟩

theorem measures_drawdown {r : MaxDrawdownRule} {c : Dict} {x : ℚ}
    (h : r.computeDrawdownPercent c = .ok x) : (LossRule.drawdown r).Measures c x := by
  unfold LossRule.Measures LossRule.decision
  show ∃ bm wm bd wd, RuleResult.action <$> r.validate c = _
  unfold MaxDrawdownRule.validate
  rw [h]
  exact ⟨_, _, _, _, rfl⟩

section Live

variable {w : Wiring} {b : Books} {o : Order} {now : ℚ} {rs : RiskState}

/-- The numbers of the risk state arrive in the context. -/
theorem orderContext_of_risk (hrisk : b.risk o.accountId = some rs) :
    (orderContext w b o now).getD "daily_pnl_percent" (.num 0) = .num rs.dailyPnlPercent ∧
      (orderContext w b o now).getD "total_drawdown_percent" (.num 0) =
        .num rs.totalDrawdownPercent ∧
      (orderContext w b o now).getD "initial_balance" (.num 0) = .num rs.dailyStartingBalance ∧
      (orderContext w b o now).getD "current_equity" (.num 0) = .num rs.currentEquity := by
  simp [orderContext, OrderValidator.context, buildValidationContext, Dict.update,
    buildAccountState, hrisk]

theorem liveState_append_mark (h : List AccountEvent) (bar : Bar) (equity : ℚ) :
    liveState (h ++ [.mark bar equity]) = (liveState h).updateEquity equity := by
  simp [liveState, liveStep]

/-- A mark leaves the drawdown from the highest mark so far. -/
theorem totalDrawdownPercent_liveState (h : List AccountEvent) (bar : Bar) (equity : ℚ) :
    (liveState (h ++ [.mark bar equity])).totalDrawdownPercent =
      fallFrom (max (highest 0 h) equity) equity := by
  have hcurrent : (liveState (h ++ [.mark bar equity])).currentEquity = equity := by
    rw [liveState_append_mark]
    rfl
  have hpeak : (liveState (h ++ [.mark bar equity])).peakEquity = max (highest 0 h) equity :=
    (liveFacts _).peak.trans (highest_append ..)
  have hfrom : (liveState (h ++ [.mark bar equity])).totalDrawdownPercent =
      (liveState (h ++ [.mark bar equity])).drawdownFromPeak := by
    rw [liveState_append_mark]
    rfl
  rw [hfrom, RiskState.drawdownFromPeak, hcurrent, hpeak, fallFrom_of_le (le_max_right _ _),
    percentOf]
  by_cases hpos : max (highest 0 h) equity ≤ 0
  · rw [if_pos hpos, if_neg hpos.not_gt]
  · rw [if_neg hpos, if_pos (not_le.mp hpos)]

theorem live_measures (rule : LossRule) (h : List AccountEvent) (bar : Bar) (equity : ℚ) :
    rule.Measures
      (orderContext w (b.setRisk o.accountId (liveState (h ++ [.mark bar equity]))) o now)
      (rule.livePercent h equity) := by
  have hrisk : (b.setRisk o.accountId (liveState (h ++ [.mark bar equity]))).risk o.accountId =
      some (liveState (h ++ [.mark bar equity])) := Function.update_self ..
  obtain ⟨hdaily, htotal, hinitial, hequity⟩ := @orderContext_of_risk w _ o now _ hrisk
  have hfacts := liveFacts (h ++ [.mark bar equity])
  have hstart : startingBalance (h ++ [.mark bar equity]) = startingBalance h :=
    startingBalance_append ..
  cases rule with
  | dailyLoss r =>
    have hpnl : realizedToday (h ++ [.mark bar equity]) = realizedToday h := by
      rw [realizedToday_append]
      exact zero_add _
    have hmeasure := measures_dailyLoss (r := r) hdaily
    rwa [hfacts.percent, hstart, hpnl, ← percentOf_neg] at hmeasure
  | drawdown r =>
    have hcurrent : (liveState (h ++ [.mark bar equity])).currentEquity = equity := by
      rw [liveState_append_mark]
      rfl
    have hmeasure :=
      measures_drawdown (MaxDrawdownRule.computeDrawdownPercent_eq (r := r) htotal hinitial hequity)
    rwa [totalDrawdownPercent_liveState, hcurrent, hfacts.start, hstart] at hmeasure

end Live

/-- The actor's drawdown, when the peak is no lower than the equity. -/
theorem totalDrawdownPercent_accountState (config : PropFirmComplianceActorConfig)
    (s : PropFirmComplianceActor) (bar : Bar) {equity : ℚ} (hle : equity ≤ s.peakBalance) :
    (PropFirmComplianceActor.context config (s.accountState config equity) bar.ts).getD
      "total_drawdown_percent" (.num 0) = .num (fallFrom s.peakBalance equity) := by
  show Value.num (if 0 < s.peakBalance ∧ equity < s.peakBalance then
    (s.peakBalance - equity) / s.peakBalance * 100 else 0) = _
  rw [fallFrom_of_le hle, percentOf]
  by_cases hpos : 0 < s.peakBalance
  · rcases hle.lt_or_eq with hlt | heq
    · rw [if_pos ⟨hpos, hlt⟩, if_pos hpos]
    · simp [heq]
  · rw [if_neg fun hand => hpos hand.1, if_neg hpos]

theorem backtest_measures (rule : LossRule) (config : PropFirmComplianceActorConfig)
    (engine : RuleEngine) (h : List AccountEvent) (bar : Bar) (equity : ℚ) :
    let s := (actorState config engine h).observe bar equity
    rule.Measures (PropFirmComplianceActor.context config (s.accountState config equity) bar.ts)
      (rule.backtestPercent config.initialBalance h bar equity) := by
  intro s
  have hfacts := actorFacts config engine h
  cases rule with
  | dailyLoss r =>
    have hopen : s.dayOpenBalance = dayOpen h bar equity := hfacts.dayOpen_observe bar equity
    have hdaily : (PropFirmComplianceActor.context config (s.accountState config equity) bar.ts).getD
        "daily_pnl_percent" (.num 0) =
          .num (percentOf config.initialBalance (equity - s.dayOpenBalance)) := rfl
    have hmeasure := measures_dailyLoss (r := r) hdaily
    rwa [← percentOf_neg, neg_sub, hopen] at hmeasure
  | drawdown r =>
    have hpeak : s.peakBalance = max (highest config.initialBalance h) equity :=
      hfacts.peak_observe bar equity
    have hle : equity ≤ s.peakBalance := by
      rw [hpeak]
      exact le_max_right _ _
    have htotal := totalDrawdownPercent_accountState config s bar hle
    have hinitial : (PropFirmComplianceActor.context config (s.accountState config equity) bar.ts).getD
        "initial_balance" (.num 0) = .num config.initialBalance := rfl
    have hequity : (PropFirmComplianceActor.context config (s.accountState config equity) bar.ts).getD
        "current_equity" (.num 0) = .num equity := rfl
    have hmeasure :=
      measures_drawdown (MaxDrawdownRule.computeDrawdownPercent_eq (r := r) htotal hinitial hequity)
    rwa [hpeak] at hmeasure

/-! ## Parity -/

/-- An account reset at 100000. -/
def afterReset : List AccountEvent := [.reset 100000, .mark { tsInit := 0 } 100000]

/-- One hour later. -/
def hourLater : Bar := { tsInit := 3600000000000 }

def fivePercentDay : LossRule := .dailyLoss { thresholdPercent := 5 }

def fiveEngine : RuleEngine :=
  .init "ftmo-001" [({ thresholdPercent := 5 } : DailyLossLimitRule).toBaseRule]

/-- **No configuration tells the two paths apart** exactly when the three
pairs of numbers agree: the daily losses as far as they are losses, and
both drawdowns. -/
theorem parity_for_all_rules_iff (config : PropFirmComplianceActorConfig) (engine : RuleEngine)
    (w : Wiring) (b : Books) (o : Order) (now : ℚ) (h : List AccountEvent) (bar : Bar) (equity : ℚ) :
    (∀ rule, liveDecision rule w b o now h bar equity =
        backtestDecision rule config engine h bar equity) ↔
      max (percentOf (startingBalance h) (-realizedToday h)) 0 =
          max (percentOf config.initialBalance (dayOpen h bar equity - equity)) 0 ∧
        fallFrom (max (highest 0 h) equity) equity =
          fallFrom (max (highest config.initialBalance h) equity) equity ∧
        fallFrom (startingBalance h) equity = fallFrom config.initialBalance equity := by
  have hrule (rule : LossRule) : liveDecision rule w b o now h bar equity =
      backtestDecision rule config engine h bar equity ↔
        SameBand rule.threshold rule.warningAt (rule.livePercent h equity)
          (rule.backtestPercent config.initialBalance h bar equity) :=
    LossRule.decision_eq_iff (live_measures rule h bar equity)
      (backtest_measures rule config engine h bar equity)
  simp only [hrule]
  rw [← max_eq_left (fallFrom_nonneg (max (highest 0 h) equity) equity),
    ← max_eq_left (fallFrom_nonneg (max (highest config.initialBalance h) equity) equity),
    ← max_eq_left (fallFrom_nonneg (startingBalance h) equity),
    ← max_eq_left (fallFrom_nonneg config.initialBalance equity)]
  simp only [← sameBand_forall_iff]
  constructor
  · intro hall
    exact ⟨fun t ws => hall (.dailyLoss { thresholdPercent := t, warningAt := ws }),
      fun t ws => hall (.drawdown { thresholdPercent := t, warningAt := ws }),
      fun t ws => hall (.drawdown { thresholdPercent := t, method := .balanceBased, warningAt := ws })⟩
  · rintro ⟨hdaily, hpeak, hbalance⟩ rule
    cases rule with
    | dailyLoss r => exact hdaily r.thresholdPercent r.warningAt
    | drawdown r =>
      simp only [LossRule.livePercent, LossRule.backtestPercent]
      cases r.method with
      | equityPeak => exact hpeak r.thresholdPercent r.warningAt
      | balanceBased => exact hbalance r.thresholdPercent r.warningAt

end TdSandboxed
