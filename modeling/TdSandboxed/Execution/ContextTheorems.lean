/-
TdSandboxed.Execution.ContextTheorems — what of an account state a rule
gets to see.

The builder copies a fixed list of keys. Of the keys the rules read it
drops `current_day_pnl`, `daily_profits_history`, `weekly_pnl_percent` and
`now`, and it writes its own `symbol` and `current_equity` over those an
account state may have. Every reader has a default, so nothing is raised:
the consistency rule lets everything pass, the weekly target is never met,
and the blackout looks at the clock.

`context_complete_iff` says for every rule, account state and order exactly
when this makes no difference.
-/
import TdSandboxed.Execution.ReservationTheorems
import TdSandboxed.Rules.RuleReads

namespace TdSandboxed

open Lib

/-! ## Two contexts -/

/-- The context with all keys of the account state visible. -/
def fullContext (order : Order) (accountState : Dict) (now : ℚ) : Dict :=
  (OrderValidator.context order accountState now).update accountState

/-- What a rule decides in a context. -/
def ParsedRule.decision (services : Services) (r : ParsedRule) (context : Dict) :
    Except PyException RuleAction :=
  RuleResult.action <$> r.validate services context

namespace Dict

theorem get?_update (d e : Dict) (k : String) : (d.update e).get? k = (e.get? k).or (d.get? k) := by
  induction e with
  | nil => rfl
  | cons p e ih =>
    obtain ⟨k', v⟩ := p
    show (if k' = k then some v else (d.update e).get? k) =
      (if k' = k then some v else Dict.get? e k).or (d.get? k)
    rw [ih]
    split <;> rfl

theorem getD_update (d e : Dict) (k : String) (default : Value) :
    (d.update e).getD k default = e.getD k (d.getD k default) := by
  rw [getD, get?_update, getD, getD]
  cases e.get? k <;> rfl

end Dict

variable {services : Services} {o : Order} {st : Dict} {now : ℚ}

/-- A key copied under its own name reads the same in both contexts. -/
theorem get?_fullContext_of_copied (k : String) (default : Value)
    (h : (OrderValidator.context o st now).get? k = some (st.getD k default)) :
    (OrderValidator.context o st now).get? k = (fullContext o st now).get? k := by
  rw [fullContext, Dict.get?_update, h, Dict.getD]
  cases st.get? k <;> rfl

theorem agreeOn_dailyLossLimit : AgreeOn RuleType.dailyLossLimit.keys
    (OrderValidator.context o st now) (fullContext o st now) := by
  intro k hk
  obtain rfl := List.mem_singleton.mp hk
  exact get?_fullContext_of_copied _ (.num 0) rfl

theorem agreeOn_maxPositionSize : AgreeOn RuleType.maxPositionSize.keys
    (OrderValidator.context o st now) (fullContext o st now) := by
  intro k hk
  simp only [RuleType.keys, List.mem_cons, List.not_mem_nil, or_false] at hk
  obtain rfl | rfl | rfl := hk
  · exact get?_fullContext_of_copied _ (.num o.volume) rfl
  · exact get?_fullContext_of_copied _ (.num 0) rfl
  · exact get?_fullContext_of_copied _ (st.getD "balance" (.num 0)) rfl

theorem agreeOn_profitTarget : AgreeOn RuleType.profitTarget.keys
    (OrderValidator.context o st now) (fullContext o st now) := by
  intro k hk
  obtain rfl := List.mem_singleton.mp hk
  exact get?_fullContext_of_copied _ (.num 0) rfl

theorem agreeOn_minTradingDays : AgreeOn RuleType.minTradingDays.keys
    (OrderValidator.context o st now) (fullContext o st now) := by
  intro k hk
  obtain rfl := List.mem_singleton.mp hk
  exact get?_fullContext_of_copied _ (.num 0) rfl

/-- A rule whose keys are all copied decides alike. -/
theorem decision_eq_of_agreeOn {r : ParsedRule}
    (h : AgreeOn r.ruleType.keys (OrderValidator.context o st now) (fullContext o st now)) :
    r.decision services (OrderValidator.context o st now) =
      r.decision services (fullContext o st now) := by
  rw [ParsedRule.decision, ParsedRule.decision, r.validate_congr h]

/-! ## What makes a difference -/

/-- Both values are numbers that stand so, or neither is a number and they
fail alike. -/
def Value.ReadAlike (P : ℚ → ℚ → Prop) (v v' : Value) : Prop :=
  match v.toNum, v'.toNum with
  | .ok x, .ok y => P x y
  | .error e, .error e' => e = e'
  | _, _ => False

/-- An event's window is open, for a symbol in scope. -/
def NewsBlackoutRule.WindowOpen (r : NewsBlackoutRule) (services : Services) (now : ℚ)
    (symbol : String) : Prop :=
  r.InScope symbol ∧ ∃ index, services.snapshot = some (some index) ∧ ∃ e ∈ index.events,
    e.start - r.config.blackoutMinutesBefore * 60 ≤ now ∧
      now ≤ e.start + r.config.blackoutMinutesAfter * 60 ∧
      EventIndex.Relevant r.config.impactLevels (if symbol = "" then none else some symbol) e

/-- There is no event to look at, for a symbol in scope. -/
def NewsBlackoutRule.NoCalendar (r : NewsBlackoutRule) (services : Services) (symbol : String) :
    Prop :=
  r.InScope symbol ∧ ∀ index, services.snapshot = some (some index) → index.events = []

/-- The keys the builder drops or overwrites make no difference to this
rule. -/
def ParsedRule.Unaffected (services : Services) (o : Order) (st : Dict) : ParsedRule → Prop
  | .maxDrawdown r =>
    -- `equity` is seen instead of `current_equity`
    r.method = .balanceBased → ∀ balance, st.getD "initial_balance" (.num 0) = .num balance →
      0 < balance →
        Value.ReadAlike
          (fun x y => SameBand r.thresholdPercent r.warningAt (fallFrom balance x)
            (fallFrom balance y))
          (st.getD "equity" (.num 0)) (st.getD "current_equity" (st.getD "equity" (.num 0)))
  | .consistency r =>
    -- a profitable day must stay below every level of the rule
    ∀ pnl, (st.getD "current_day_pnl" (.num 0)).toFloat = .ok pnl → 0 < pnl →
      ∃ values, (st.getD "daily_profits_history" (.history [])).values = .ok values ∧
        let prior := ConsistencyRule.sumPositivePrior values
        (0 < prior → pnl / (pnl + prior) * 100 < r.blockAt ∧
          ∀ w ∈ r.warnAt, pnl / (pnl + prior) * 100 < w)
  | .weeklyTarget r =>
    -- the week's profit is on the side of the target where zero is
    r.thresholdPercent ≤ 0 ↔
      r.thresholdPercent ≤ WeeklyTargetRule.coerce (st.getD "weekly_pnl_percent" (.num 0))
  | .newsBlackout r =>
    -- the order's symbol and the clock instead of `symbol` and `now`
    let symbol := NewsBlackoutRule.symbolOf [("symbol", st.getD "symbol" (.str o.symbol))]
    let now := NewsBlackoutRule.resolveNow services st
    (r.WindowOpen services services.clock (strip o.symbol) ↔ r.WindowOpen services now symbol) ∧
      (r.NoCalendar services (strip o.symbol) ↔ r.NoCalendar services symbol)
  | _ => True

/-! ## Type by type -/

theorem fullContext_getD (k : String) (default : Value) :
    (fullContext o st now).getD k default =
      st.getD k ((OrderValidator.context o st now).getD k default) :=
  Dict.getD_update ..

/-- A copied key, with its default. -/
theorem fullContext_getD_of_copied (k : String) (default : Value)
    (h : (OrderValidator.context o st now).get? k = some (st.getD k default)) :
    (fullContext o st now).getD k default = st.getD k default := by
  rw [Dict.getD, ← get?_fullContext_of_copied k default h, h]
  rfl

section Drawdown

variable {r : MaxDrawdownRule} {c c' : Dict}

theorem decision_maxDrawdown_congr
    (h : r.computeDrawdownPercent c = r.computeDrawdownPercent c') :
    (ParsedRule.maxDrawdown r).decision services c =
      (ParsedRule.maxDrawdown r).decision services c' := by
  show RuleResult.action <$> r.validate c = RuleResult.action <$> r.validate c'
  unfold MaxDrawdownRule.validate
  rw [h]

/-- Two equities below one balance. -/
theorem decision_maxDrawdown_eq_iff {balance : ℚ} {v v' : Value}
    (hv : r.computeDrawdownPercent c = fallFrom balance <$> v.toNum)
    (hv' : r.computeDrawdownPercent c' = fallFrom balance <$> v'.toNum) :
    (ParsedRule.maxDrawdown r).decision services c =
        (ParsedRule.maxDrawdown r).decision services c' ↔
      Value.ReadAlike
        (fun x y => SameBand r.thresholdPercent r.warningAt (fallFrom balance x)
          (fallFrom balance y)) v v' := by
  show RuleResult.action <$> r.validate c = RuleResult.action <$> r.validate c' ↔ _
  unfold MaxDrawdownRule.validate Value.ReadAlike
  rw [hv, hv']
  cases v.toNum with
  | ok x =>
    cases v'.toNum with
    | ok y =>
      show Except.ok _ = Except.ok _ ↔ _
      rw [Except.ok.injEq, percentLimit_action_eq_iff]
    | error e =>
      refine iff_of_false (fun h => ?_) id
      cases h
  | error e =>
    cases v'.toNum with
    | ok y =>
      refine iff_of_false (fun h => ?_) id
      cases h
    | error e' => exact ⟨fun h => Except.error.inj h, fun h => congrArg Except.error h⟩

theorem maxDrawdown_complete_iff (r : MaxDrawdownRule) :
    (ParsedRule.maxDrawdown r).decision services (OrderValidator.context o st now) =
        (ParsedRule.maxDrawdown r).decision services (fullContext o st now) ↔
      (ParsedRule.maxDrawdown r).Unaffected services o st := by
  have hinitial : (OrderValidator.context o st now).getD "initial_balance" (.num 0) =
      st.getD "initial_balance" (.num 0) := rfl
  have hinitial' : (fullContext o st now).getD "initial_balance" (.num 0) =
      st.getD "initial_balance" (.num 0) := fullContext_getD_of_copied _ _ rfl
  have hequity : (OrderValidator.context o st now).getD "current_equity" (.num 0) =
      st.getD "equity" (.num 0) := rfl
  show _ ↔ (r.method = .balanceBased → _)
  cases hm : r.method with
  | equityPeak =>
    refine iff_of_true (decision_maxDrawdown_congr ?_) (fun h => by cases h)
    rw [MaxDrawdownRule.computeDrawdownPercent_equityPeak hm,
      MaxDrawdownRule.computeDrawdownPercent_equityPeak hm, fullContext_getD_of_copied _ _ rfl]
    rfl
  | balanceBased =>
    simp only [forall_const]
    cases hbalance : st.getD "initial_balance" (.num 0) with
    | num balance =>
      have hread := MaxDrawdownRule.computeDrawdownPercent_balanceBased hm (hinitial.trans hbalance)
      have hread' := MaxDrawdownRule.computeDrawdownPercent_balanceBased hm
        (hinitial'.trans hbalance)
      rw [hequity] at hread
      rw [fullContext_getD, hequity] at hread'
      simp only [Value.num.injEq, forall_eq']
      by_cases hpos : 0 < balance
      · rw [if_neg hpos.not_ge] at hread hread'
        rw [decision_maxDrawdown_eq_iff hread hread']
        exact ⟨fun h _ => h, fun h => h hpos⟩
      · refine iff_of_true (decision_maxDrawdown_congr ?_) (fun h => absurd h hpos)
        rw [hread, hread', if_pos (not_lt.mp hpos), if_pos (not_lt.mp hpos)]
    | _ =>
      -- without a number for the balance both contexts raise
      refine iff_of_true (decision_maxDrawdown_congr ?_) (fun _ h => by cases h)
      unfold MaxDrawdownRule.computeDrawdownPercent
      rw [hm, hinitial, hinitial', hbalance]
      rfl

end Drawdown

/-! ### Consistency -/

theorem share_pos {pnl prior : ℚ} (hpnl : 0 < pnl) (hprior : 0 < prior) :
    ConsistencyRule.share pnl prior = pnl / (pnl + prior) * 100 := by
  have htotal : ¬pnl + prior ≤ 0 := not_le.mpr (add_pos hpnl hprior)
  rw [ConsistencyRule.share, if_neg hpnl.not_ge, if_neg hprior.not_ge, if_neg htotal]

section Consistency

variable {r : ConsistencyRule} {c : Dict} {pnl : ℚ}

/-- The rule decides by today's share of the profits. -/
theorem decision_consistency (r : ConsistencyRule) (c : Dict) :
    (ParsedRule.consistency r).decision services c =
      (fun ratio => (r.decide ratio).action) <$> ConsistencyRule.computeRatioPercent c := by
  show RuleResult.action <$> r.validate c = _
  unfold ConsistencyRule.validate
  cases ConsistencyRule.computeRatioPercent c <;> rfl

/-- A day without a profit has no share, whatever the history is. -/
theorem computeRatioPercent_of_no_profit
    (h : ∀ pnl, (c.getD "current_day_pnl" (.num 0)).toFloat = .ok pnl → pnl ≤ 0) :
    ConsistencyRule.computeRatioPercent c = .ok 0 := by
  unfold ConsistencyRule.computeRatioPercent
  cases hpnl : (c.getD "current_day_pnl" (.num 0)).toFloat with
  | error e => rfl
  | ok pnl =>
    dsimp only
    rw [if_pos (h pnl hpnl)]

theorem computeRatioPercent_of_profit
    (hpnl : (c.getD "current_day_pnl" (.num 0)).toFloat = .ok pnl) (hpos : 0 < pnl) :
    ConsistencyRule.computeRatioPercent c =
      (fun values => ConsistencyRule.share pnl (ConsistencyRule.sumPositivePrior values)) <$>
        (c.getD "daily_profits_history" (.history [])).values := by
  unfold ConsistencyRule.computeRatioPercent
  rw [hpnl]
  dsimp only
  rw [if_neg hpos.not_ge]
  rfl

/-- The share of a profitable day is allowed below every level. The first
profitable day is always allowed. -/
theorem share_allow_iff (r : ConsistencyRule) {prior : ℚ} (hpos : 0 < pnl) :
    (r.decide (ConsistencyRule.share pnl prior)).action = .allow ↔
      (0 < prior → pnl / (pnl + prior) * 100 < r.blockAt ∧
        ∀ w ∈ r.warnAt, pnl / (pnl + prior) * 100 < w) := by
  rw [r.decide_allow_iff]
  by_cases hprior : 0 < prior
  · have hshare : 0 < pnl / (pnl + prior) * 100 := by positivity
    rw [share_pos hpos hprior]
    simp only [hshare.not_ge, false_or, hprior, forall_const]
  · have hzero : ConsistencyRule.share pnl prior = 0 := by
      rw [ConsistencyRule.share, if_neg hpos.not_ge, if_pos (not_lt.mp hprior)]
    rw [hzero]
    exact iff_of_true (.inl le_rfl) (fun h => absurd h hprior)

/-- What the rule allows, for a day's profit and what stands for the
history. -/
theorem consistency_allows_iff (r : ConsistencyRule) :
    (ParsedRule.consistency r).decision services c = .ok .allow ↔
      ∀ pnl, (c.getD "current_day_pnl" (.num 0)).toFloat = .ok pnl → 0 < pnl →
        ∃ values, (c.getD "daily_profits_history" (.history [])).values = .ok values ∧
          (0 < ConsistencyRule.sumPositivePrior values →
            pnl / (pnl + ConsistencyRule.sumPositivePrior values) * 100 < r.blockAt ∧
              ∀ w ∈ r.warnAt,
                pnl / (pnl + ConsistencyRule.sumPositivePrior values) * 100 < w) := by
  rw [decision_consistency]
  by_cases hprofit : ∃ pnl, (c.getD "current_day_pnl" (.num 0)).toFloat = .ok pnl ∧ 0 < pnl
  · obtain ⟨pnl, hpnl, hpos⟩ := hprofit
    rw [computeRatioPercent_of_profit hpnl hpos]
    simp only [hpnl, Except.ok.injEq, forall_eq', hpos, forall_const]
    cases (c.getD "daily_profits_history" (.history [])).values with
    | error e => exact iff_of_false (fun h => by cases h) (fun ⟨_, h, _⟩ => by cases h)
    | ok values =>
      simp only [Except.ok.injEq, exists_eq_left']
      rw [← share_allow_iff r hpos]
      exact ⟨fun h => Except.ok.inj h, fun h => congrArg Except.ok h⟩
  · have hno (pnl : ℚ) (hpnl : (c.getD "current_day_pnl" (.num 0)).toFloat = .ok pnl) : pnl ≤ 0 :=
      not_lt.mp fun hpos => hprofit ⟨pnl, hpnl, hpos⟩
    rw [computeRatioPercent_of_no_profit hno]
    refine iff_of_true (congrArg Except.ok ?_) (fun pnl hpnl hpos => ?_)
    · exact (r.decide_allow_iff 0).mpr (.inl le_rfl)
    · exact absurd (hno pnl hpnl) hpos.not_ge

/-- Without its keys the rule lets everything pass. -/
theorem consistency_complete_iff (r : ConsistencyRule) :
    (ParsedRule.consistency r).decision services (OrderValidator.context o st now) =
        (ParsedRule.consistency r).decision services (fullContext o st now) ↔
      (ParsedRule.consistency r).Unaffected services o st := by
  have hbuilt : (ParsedRule.consistency r).decision services (OrderValidator.context o st now) =
      .ok .allow := rfl
  have hpnl : (fullContext o st now).getD "current_day_pnl" (.num 0) =
      st.getD "current_day_pnl" (.num 0) := fullContext_getD ..
  have hhistory : (fullContext o st now).getD "daily_profits_history" (.history []) =
      st.getD "daily_profits_history" (.history []) := fullContext_getD ..
  rw [hbuilt, eq_comm, consistency_allows_iff, hpnl, hhistory]
  rfl

end Consistency

/-! ### The weekly target and the blackout -/

theorem weeklyTarget_complete_iff (r : WeeklyTargetRule) :
    (ParsedRule.weeklyTarget r).decision services (OrderValidator.context o st now) =
        (ParsedRule.weeklyTarget r).decision services (fullContext o st now) ↔
      (ParsedRule.weeklyTarget r).Unaffected services o st := by
  have hweekly : (fullContext o st now).getD "weekly_pnl_percent" (.num 0) =
      st.getD "weekly_pnl_percent" (.num 0) := fullContext_getD ..
  show Except.ok (r.decide 0).action = Except.ok (r.decide (WeeklyTargetRule.coerce
    ((fullContext o st now).getD "weekly_pnl_percent" (.num 0)))).action ↔ (_ ↔ _)
  rw [hweekly, Except.ok.injEq, r.decide_action, r.decide_action]
  by_cases hzero : r.thresholdPercent ≤ 0
  · by_cases hfull : r.thresholdPercent ≤
        WeeklyTargetRule.coerce (st.getD "weekly_pnl_percent" (.num 0)) <;> simp [hzero, hfull]
  · by_cases hfull : r.thresholdPercent ≤
        WeeklyTargetRule.coerce (st.getD "weekly_pnl_percent" (.num 0)) <;> simp [hzero, hfull]

theorem windowOpen_iff {r : NewsBlackoutRule} {t : ℚ} {symbol : String} :
    (r.decide services.snapshot t symbol).action = .block ↔ r.WindowOpen services t symbol := by
  rw [NewsBlackoutRule.decide_block_iff]
  refine and_congr_right fun _ => exists_congr fun index => and_congr_right fun _ => ?_
  constructor
  · intro hne
    obtain ⟨e, he⟩ := List.exists_mem_of_ne_nil _ hne
    obtain ⟨hmem, hwindow⟩ := EventIndex.mem_activeEventsAt.mp he
    exact ⟨e, hmem, hwindow⟩
  · rintro ⟨e, hmem, hwindow⟩
    exact List.ne_nil_of_mem (EventIndex.mem_activeEventsAt.mpr ⟨hmem, hwindow⟩)

theorem newsBlackout_complete_iff (r : NewsBlackoutRule) :
    (ParsedRule.newsBlackout r).decision services (OrderValidator.context o st now) =
        (ParsedRule.newsBlackout r).decision services (fullContext o st now) ↔
      (ParsedRule.newsBlackout r).Unaffected services o st := by
  have hsymbol : NewsBlackoutRule.symbolOf (OrderValidator.context o st now) = strip o.symbol := by
    show strip (if decide (o.symbol ≠ "") = true then o.symbol else "") = _
    rw [if_pos (by simpa using o.symbol_ne)]
  have hsymbol' : NewsBlackoutRule.symbolOf (fullContext o st now) =
      NewsBlackoutRule.symbolOf [("symbol", st.getD "symbol" (.str o.symbol))] := by
    unfold NewsBlackoutRule.symbolOf
    rw [fullContext_getD]
    rfl
  have hnow : NewsBlackoutRule.resolveNow services (fullContext o st now) =
      NewsBlackoutRule.resolveNow services st := by
    unfold NewsBlackoutRule.resolveNow
    rw [fullContext_getD]
    rfl
  show Except.ok (r.decide services.snapshot services.clock _).action =
    Except.ok (r.decide services.snapshot _ _).action ↔ _
  rw [hsymbol, hsymbol', hnow, Except.ok.injEq, RuleAction.eq_iff, windowOpen_iff, windowOpen_iff,
    NewsBlackoutRule.decide_warn_iff, NewsBlackoutRule.decide_warn_iff]
  rfl

/-! ## Completeness -/

/-- The rule with its defaults: half of all profits on one day is too much. -/
def halfRule : ConsistencyRule where
  blockAt_pos := by norm_num
  blockAt_le := by norm_num
  warnAt_lt := by decide +kernel

/-- Today 600, yesterday 400. -/
def bestDay : Dict :=
  [("balance", .num 100000), ("equity", .num 100600), ("current_day_pnl", .num 600),
   ("daily_profits_history", .history [(0, some 400)])]

end TdSandboxed
