/-
TdSandboxed.Backtesting.TradingDayTheorems — the trading day of the
compliance actor.

Three pieces of state move with a bar: the equity the day opened with, the
history of completed days, and the log of breaches. The first two go by the
UTC date of the bar. The log goes by the session id, which is the date in
the timezone of the session.

`TradingDay` says what the three hold after a run. Its parameter `dayOf` is
the day a time lies in, for the opening equity and for the history:
`tradingDay_of_run` has the UTC date there. So with the session id there it
holds exactly when the bars of a session and those of its UTC date open and
close alike (`tradingDay_iff`).
-/
import TdSandboxed.Backtesting.ParityTheorems

namespace TdSandboxed

/-! ## The bars of a day -/

section Days

variable (dayOf : ℤ → ℤ) (bars : List (Bar × ℚ))

def dayBars (day : ℤ) : List (Bar × ℚ) := bars.filter fun m => dayOf m.1.ts = day

/-- The equity at the first bar of a day. -/
def dayOpening (day : ℤ) : Option ℚ := (dayBars dayOf bars day).head?.map Prod.snd

/-- The equity at its last bar. -/
def dayClosing (day : ℤ) : Option ℚ := (dayBars dayOf bars day).getLast?.map Prod.snd

/-- What a day made, if it has a bar. -/
def dayProfit (day : ℤ) : Option ℚ := do
  let opening ← dayOpening dayOf bars day
  let closing ← dayClosing dayOf bars day
  return closing - opening

variable {dayOf bars} {m : Bar × ℚ} {day : ℤ}

theorem dayBars_concat_of_ne (h : dayOf m.1.ts ≠ day) :
    dayBars dayOf (bars ++ [m]) day = dayBars dayOf bars day := by
  simp [dayBars, List.filter_append, h]

theorem dayBars_concat_self :
    dayBars dayOf (bars ++ [m]) (dayOf m.1.ts) = dayBars dayOf bars (dayOf m.1.ts) ++ [m] := by
  simp [dayBars, List.filter_append]

theorem dayOpening_concat_of_ne (h : dayOf m.1.ts ≠ day) :
    dayOpening dayOf (bars ++ [m]) day = dayOpening dayOf bars day := by
  rw [dayOpening, dayBars_concat_of_ne h, dayOpening]

theorem dayOpening_concat_self :
    dayOpening dayOf (bars ++ [m]) (dayOf m.1.ts) =
      some ((dayOpening dayOf bars (dayOf m.1.ts)).getD m.2) := by
  rw [dayOpening, dayBars_concat_self, dayOpening]
  cases dayBars dayOf bars (dayOf m.1.ts) <;> rfl

theorem dayProfit_concat_of_ne (h : dayOf m.1.ts ≠ day) :
    dayProfit dayOf (bars ++ [m]) day = dayProfit dayOf bars day := by
  simp only [dayProfit, dayOpening_concat_of_ne h, dayClosing, dayBars_concat_of_ne h]

theorem dayProfit_concat_self :
    dayProfit dayOf (bars ++ [m]) (dayOf m.1.ts) =
      some (m.2 - (dayOpening dayOf bars (dayOf m.1.ts)).getD m.2) := by
  rw [dayProfit, dayOpening_concat_self, dayClosing, dayBars_concat_self, List.getLast?_concat]
  rfl

theorem dayOpening_eq_none_iff :
    dayOpening dayOf bars day = none ↔ ∀ m ∈ bars, dayOf m.1.ts ≠ day := by
  simp [dayOpening, dayBars]

theorem dayProfit_isSome_iff :
    (dayProfit dayOf bars day).isSome ↔ ∃ m ∈ bars, dayOf m.1.ts = day := by
  have hbars : dayBars dayOf bars day = [] ↔ ¬ ∃ m ∈ bars, dayOf m.1.ts = day := by
    simp [dayBars]
  unfold dayProfit dayOpening dayClosing
  cases hd : dayBars dayOf bars day with
  | nil => simp [hbars.mp hd]
  | cons b rest =>
    have hsome : ∃ m ∈ bars, dayOf m.1.ts = day := by
      by_contra hno
      exact List.cons_ne_nil b rest (hd ▸ hbars.mpr hno)
    simp [hsome, List.getLast?_cons]

/-- A day opens once. -/
theorem dayOpening_mono {pre : List (Bar × ℚ)} {opening : ℚ} (hpre : pre <+: bars)
    (h : dayOpening dayOf pre day = some opening) : dayOpening dayOf bars day = some opening := by
  obtain ⟨rest, rfl⟩ := hpre
  unfold dayOpening dayBars at *
  rw [List.filter_append]
  cases hd : pre.filter fun m => dayOf m.1.ts = day with
  | nil => rw [hd] at h; cases h
  | cons b others =>
    rw [hd] at h
    exact h

end Days

/-! ## A run -/

def marks (bars : List (Bar × ℚ)) : List AccountEvent := bars.map fun m => .mark m.1 m.2

/-- Something holds at a bar of a longer run if it does at a bar of the run
or at the new one. -/
theorem exists_prefix_concat {P : List (Bar × ℚ) → Bar → ℚ → Prop} {bars : List (Bar × ℚ)}
    {m : Bar × ℚ} :
    (∃ before bar equity, before ++ [(bar, equity)] <+: bars ++ [m] ∧ P before bar equity) ↔
      (∃ before bar equity, before ++ [(bar, equity)] <+: bars ∧ P before bar equity) ∨
        P bars m.1 m.2 := by
  constructor
  · intro ⟨before, bar, equity, hpre, h⟩
    cases List.prefix_concat_iff.mp hpre with
    | inl heq =>
      obtain ⟨rfl, hlast⟩ := List.append_inj' heq rfl
      rw [← List.singleton_inj.mp hlast]
      exact .inr h
    | inr hpre => exact .inl ⟨before, bar, equity, hpre, h⟩
  · intro h
    cases h with
    | inl h =>
      obtain ⟨before, bar, equity, hpre, h⟩ := h
      exact ⟨before, bar, equity, hpre.trans (List.prefix_append _ _), h⟩
    | inr h => exact ⟨bars, m.1, m.2, List.prefix_rfl, h⟩

/-- No bar comes before the first one. -/
theorem not_prefix_concat_nil {before : List (Bar × ℚ)} {m : Bar × ℚ} : ¬ before ++ [m] <+: [] := by
  intro h
  exact List.append_ne_nil_of_right_ne_nil before (List.cons_ne_nil m []) (List.prefix_nil.mp h)

theorem actorState_marks_concat (config : PropFirmComplianceActorConfig) (engine : RuleEngine)
    (bars : List (Bar × ℚ)) (m : Bar × ℚ) :
    actorState config engine (marks (bars ++ [m])) =
      (actorState config engine (marks bars)).onBar config engine m.1 (some m.2) := by
  simp [actorState, marks, actorStep]

/-- The context in which the rules are evaluated at a bar, after the bars
before it. -/
def barContext (config : PropFirmComplianceActorConfig) (engine : RuleEngine)
    (before : List (Bar × ℚ)) (bar : Bar) (equity : ℚ) : Dict :=
  let s := (actorState config engine (marks before)).observe bar equity
  PropFirmComplianceActor.context config (s.accountState config equity) bar.ts

/-- A rule of that name blocks at some bar of that session. -/
def BlockedIn (config : PropFirmComplianceActorConfig) (engine : RuleEngine)
    (bars : List (Bar × ℚ)) (session : ℤ × String) : Prop :=
  ∃ before bar equity, before ++ [(bar, equity)] <+: bars ∧ config.sessionId bar.ts = session.1 ∧
    ∃ rule, engine.Blocks (barContext config engine before bar equity) rule ∧ rule.name = session.2

/-- The session and the rule of an entry of the log. -/
def breachKey (config : PropFirmComplianceActorConfig) (event : BreachEvent) : ℤ × String :=
  (config.sessionId event.ts, event.ruleName)

/-- Opening equity, log and history agree on the days of a run. -/
structure TradingDay (dayOf : ℤ → ℤ) (config : PropFirmComplianceActorConfig) (engine : RuleEngine)
    (bars : List (Bar × ℚ)) : Prop where
  /-- At every bar the rules see the change since the day's first bar. -/
  dailyPnl : ∀ before bar equity, before ++ [(bar, equity)] <+: bars →
    ∃ opening, dayOpening dayOf bars (dayOf bar.ts) = some opening ∧
      (barContext config engine before bar equity).get? "daily_pnl" =
        some (.num (equity - opening)) ∧
      (barContext config engine before bar equity).get? "current_day_pnl" =
        some (.num (equity - opening))
  loggedOnce : ((actorState config engine (marks bars)).breaches.map (breachKey config)).Nodup
  logged : ∀ session, session ∈ (actorState config engine (marks bars)).breaches.map
    (breachKey config) ↔ BlockedIn config engine bars session
  /-- During the run the history holds the days before the current one. -/
  completed : ∀ day pnl, (day, pnl) ∈ (actorState config engine (marks bars)).profitHistory ↔
    (∃ m ∈ bars, day < dayOf m.1.ts) ∧ dayProfit dayOf bars day = some pnl
  recordedOnce :
    ((actorState config engine (marks bars)).onStop.profitHistory.map Prod.fst).Nodup
  recorded : ∀ day pnl, (day, pnl) ∈ (actorState config engine (marks bars)).onStop.profitHistory ↔
    dayProfit dayOf bars day = some pnl

/-- The bars come in the order of their timestamps. -/
def InOrder (bars : List (Bar × ℚ)) : Prop := bars.Pairwise fun a b => a.1.tsInit ≤ b.1.tsInit

theorem utcDate_mono {a b : Bar} (h : a.tsInit ≤ b.tsInit) : utcDate a.ts ≤ utcDate b.ts := by
  have hts : a.ts ≤ b.ts := Int.ediv_le_ediv (by decide) h
  exact Int.ediv_le_ediv (by decide) hts

theorem InOrder.le_getLast {bars : List (Bar × ℚ)} (h : InOrder bars) {m last : Bar × ℚ}
    (hlast : bars.getLast? = some last) (hm : m ∈ bars) : utcDate m.1.ts ≤ utcDate last.1.ts := by
  obtain ⟨before, rfl⟩ := List.getLast?_eq_some_iff.mp hlast
  cases List.mem_append.mp hm with
  | inl hbefore =>
    exact utcDate_mono ((List.pairwise_append.mp h).2.2 m hbefore last (List.mem_singleton_self last))
  | inr heq => rw [List.mem_singleton.mp heq]

/-! ## Opening equity and history -/

/-- What the actor knows of its days. -/
structure DayFacts (bars : List (Bar × ℚ)) (s : PropFirmComplianceActor) : Prop where
  current : s.currentDay = bars.getLast?.map fun m => utcDate m.1.ts
  opened : ∀ day, s.currentDay = some day → dayOpening utcDate bars day = some s.dayOpenBalance
  last : ∀ day, s.currentDay = some day → dayProfit utcDate bars day = some s.lastDailyPnl
  nodup : (s.profitHistory.map Prod.fst).Nodup
  history : ∀ day pnl, (day, pnl) ∈ s.profitHistory ↔
    s.currentDay ≠ some day ∧ dayProfit utcDate bars day = some pnl

section DayFacts

variable {bars : List (Bar × ℚ)} {s : PropFirmComplianceActor}

/-- The day at hand is not in the history, so recording it adds it. -/
theorem DayFacts.record (hs : DayFacts bars s) {day : ℤ} (hday : s.currentDay = some day) :
    (s.registerCompletedDay day s.lastDailyPnl).profitHistory =
      s.profitHistory ++ [(day, s.lastDailyPnl)] :=
  PropFirmComplianceActor.registerCompletedDay_of_new _ fun pnl hmem =>
    ((hs.history day pnl).mp hmem).1 hday

theorem DayFacts.record_nodup (hs : DayFacts bars s) {day : ℤ} (hday : s.currentDay = some day) :
    ((s.profitHistory ++ [(day, s.lastDailyPnl)]).map Prod.fst).Nodup := by
  rw [List.map_append, List.nodup_append']
  refine ⟨hs.nodup, List.nodup_singleton _, List.disjoint_singleton.mpr ?_⟩
  intro hmem
  obtain ⟨⟨_, pnl⟩, hp, rfl⟩ := List.mem_map.mp hmem
  exact ((hs.history _ pnl).mp hp).1 hday

/-- With the day at hand the history is that of all the bars. -/
theorem DayFacts.mem_record (hs : DayFacts bars s) {day : ℤ} (hday : s.currentDay = some day)
    (d : ℤ) (pnl : ℚ) :
    (d, pnl) ∈ s.profitHistory ++ [(day, s.lastDailyPnl)] ↔
      dayProfit utcDate bars d = some pnl := by
  rw [List.mem_append, List.mem_singleton, hs.history, hday]
  by_cases hd : d = day
  · rw [hd, hs.last day hday]
    simp [eq_comm]
  · simp [hd, Ne.symm hd]

theorem observe_first (h : s.currentDay = none) (bar : Bar) (equity : ℚ) :
    (s.observe bar equity).dayOpenBalance = equity ∧
      (s.observe bar equity).profitHistory = s.profitHistory := by
  have hcurrent : (s.recordEquity bar.ts equity).currentDay = none := h
  unfold PropFirmComplianceActor.observe PropFirmComplianceActor.rollDay
  rw [hcurrent]
  exact ⟨rfl, rfl⟩

theorem observe_same {bar : Bar} (h : s.currentDay = some (utcDate bar.ts)) (equity : ℚ) :
    (s.observe bar equity).dayOpenBalance = s.dayOpenBalance ∧
      (s.observe bar equity).profitHistory = s.profitHistory := by
  have hcurrent : (s.recordEquity bar.ts equity).currentDay = some (utcDate bar.ts) := h
  unfold PropFirmComplianceActor.observe PropFirmComplianceActor.rollDay
  rw [hcurrent]
  dsimp only
  rw [if_neg (not_not_intro rfl)]
  exact ⟨rfl, rfl⟩

theorem observe_rolled {bar : Bar} {day : ℤ} (h : s.currentDay = some day)
    (hne : utcDate bar.ts ≠ day) (equity : ℚ) :
    (s.observe bar equity).dayOpenBalance = equity ∧
      (s.observe bar equity).profitHistory =
        (s.registerCompletedDay day s.lastDailyPnl).profitHistory := by
  have hcurrent : (s.recordEquity bar.ts equity).currentDay = some day := h
  unfold PropFirmComplianceActor.observe PropFirmComplianceActor.rollDay
  rw [hcurrent]
  dsimp only
  rw [if_pos hne]
  exact ⟨rfl, rfl⟩

/-- Only a later day can follow the one at hand. -/
theorem DayFacts.fresh (hs : DayFacts bars s) {m : Bar × ℚ} (hord : InOrder (bars ++ [m])) {day : ℤ}
    (hday : s.currentDay = some day) (hne : utcDate m.1.ts ≠ day) :
    ∀ b ∈ bars, utcDate b.1.ts ≠ utcDate m.1.ts := by
  obtain ⟨hbars, _, hlater⟩ := List.pairwise_append.mp hord
  obtain ⟨last, hlast, hlastDay⟩ := Option.map_eq_some_iff.mp (hs.current.symm.trans hday)
  intro b hb heq
  have hle : utcDate b.1.ts ≤ utcDate last.1.ts := InOrder.le_getLast hbars hlast hb
  have hlate : utcDate last.1.ts ≤ utcDate m.1.ts :=
    utcDate_mono (hlater last (List.mem_of_getLast? hlast) m (List.mem_singleton_self m))
  omega

/-- However the day rolls: the opening equity is that of the first bar of
the date, and the history holds the other days. -/
theorem DayFacts.rolls (hs : DayFacts bars s) {bar : Bar} {equity : ℚ}
    (hord : InOrder (bars ++ [(bar, equity)])) :
    (s.observe bar equity).dayOpenBalance =
        (dayOpening utcDate bars (utcDate bar.ts)).getD equity ∧
      ((s.observe bar equity).profitHistory.map Prod.fst).Nodup ∧
      ∀ day pnl, (day, pnl) ∈ (s.observe bar equity).profitHistory ↔
        utcDate bar.ts ≠ day ∧ dayProfit utcDate bars day = some pnl := by
  cases hday : s.currentDay with
  | none =>
    obtain ⟨hopen, hhist⟩ := observe_first hday bar equity
    have hnil : bars = [] := by
      have hlast := hs.current.symm.trans hday
      simpa using hlast
    subst hnil
    refine ⟨hopen, hhist ▸ hs.nodup, fun day pnl => ?_⟩
    rw [hhist, hs.history]
    refine iff_of_false ?_ ?_
    · intro h
      cases h.2
    · intro h
      cases h.2
  | some day =>
    by_cases hdate : utcDate bar.ts = day
    · subst hdate
      obtain ⟨hopen, hhist⟩ := observe_same hday equity
      refine ⟨?_, hhist ▸ hs.nodup, fun d pnl => ?_⟩
      · rw [hopen, hs.opened _ hday]
        rfl
      · rw [hhist, hs.history, hday, Ne, Option.some.injEq]
    · obtain ⟨hopen, hhist⟩ := observe_rolled hday hdate equity
      have hfresh := hs.fresh hord hday hdate
      rw [hs.record hday] at hhist
      refine ⟨?_, hhist ▸ hs.record_nodup hday, fun d pnl => ?_⟩
      · rw [hopen, dayOpening_eq_none_iff.mpr hfresh]
        rfl
      · rw [hhist, hs.mem_record hday]
        refine ⟨fun h => ⟨?_, h⟩, And.right⟩
        intro heq
        obtain ⟨b, hb, hbday⟩ := dayProfit_isSome_iff.mp (Option.isSome_of_eq_some h)
        exact hfresh b hb (hbday.trans heq.symm)

/-- One bar later, in the books the rules are asked with. -/
theorem DayFacts.observe (hs : DayFacts bars s) {bar : Bar} {equity : ℚ}
    (hord : InOrder (bars ++ [(bar, equity)])) :
    DayFacts (bars ++ [(bar, equity)]) (s.observe bar equity) := by
  have hcurrent : (s.observe bar equity).currentDay = some (utcDate bar.ts) := currentDay_observe ..
  obtain ⟨hopen, hnodup, hhist⟩ := hs.rolls hord
  refine ⟨?_, ?_, ?_, hnodup, fun day pnl => ?_⟩
  · rw [hcurrent, List.getLast?_concat]
    rfl
  · intro day hday
    obtain rfl := Option.some.inj (hcurrent.symm.trans hday)
    rw [hopen]
    exact dayOpening_concat_self
  · intro day hday
    obtain rfl := Option.some.inj (hcurrent.symm.trans hday)
    show _ = some (equity - (s.observe bar equity).dayOpenBalance)
    rw [hopen]
    exact dayProfit_concat_self
  · rw [hhist, hcurrent]
    simp only [ne_eq, Option.some.injEq]
    refine and_congr_right fun hne => ?_
    rw [dayProfit_concat_of_ne hne]

end DayFacts

/-- The books of a run, day by day. -/
theorem dayFacts_of_run (config : PropFirmComplianceActorConfig) (engine : RuleEngine)
    {bars : List (Bar × ℚ)} (hord : InOrder bars) :
    DayFacts bars (actorState config engine (marks bars)) := by
  induction bars using List.reverseRecOn with
  | nil =>
    refine ⟨rfl, ?_, ?_, List.nodup_nil, fun day pnl => ⟨?_, ?_⟩⟩
    · intro day h
      cases h
    · intro day h
      cases h
    · intro h
      cases h
    · intro h
      cases h.2
  | append_singleton bars m ih =>
    have hstep := (ih (List.pairwise_append.mp hord).1).observe hord
    rw [actorState_marks_concat]
    obtain ⟨dedup, breaches, hlog⟩ := PropFirmComplianceActor.foldl_recordBreach_eq _ _ _
    show DayFacts _ (List.foldl _ _ _)
    rw [hlog]
    exact ⟨hstep.current, hstep.opened, hstep.last, hstep.nodup, hstep.history⟩

/-! ## The log -/

section Log

variable {config : PropFirmComplianceActorConfig} {engine : RuleEngine}

/-- What the actor remembers of its log, and that it logs a key once. -/
structure LogFacts (config : PropFirmComplianceActorConfig) (s : PropFirmComplianceActor) : Prop where
  dedup : ∀ key, key ∈ s.dedup ↔ key ∈ s.breaches.map (breachKey config)
  nodup : (s.breaches.map (breachKey config)).Nodup

theorem LogFacts.recordBreach {s : PropFirmComplianceActor} (hs : LogFacts config s)
    {sessionId : ℤ} {event : BreachEvent} (hid : config.sessionId event.ts = sessionId) :
    LogFacts config (s.recordBreach sessionId event) ∧
      ∀ key, key ∈ (s.recordBreach sessionId event).breaches.map (breachKey config) ↔
        key ∈ s.breaches.map (breachKey config) ∨ key = breachKey config event := by
  have hkey : (sessionId, event.ruleName) = breachKey config event := by rw [breachKey, hid]
  unfold PropFirmComplianceActor.recordBreach
  dsimp only
  rw [hkey]
  by_cases hmem : breachKey config event ∈ s.dedup
  · rw [if_pos hmem]
    refine ⟨hs, fun key => ⟨.inl, ?_⟩⟩
    intro h
    cases h with
    | inl h => exact h
    | inr h => exact h ▸ (hs.dedup _).mp hmem
  · have hnew : breachKey config event ∉ s.breaches.map (breachKey config) :=
      fun h => hmem ((hs.dedup _).mpr h)
    rw [if_neg hmem]
    refine ⟨⟨fun key => ?_, ?_⟩, fun key => ?_⟩
    · rw [List.mem_cons, hs.dedup, List.map_append, List.mem_append, or_comm]
      exact or_congr_right List.mem_singleton.symm
    · rw [List.map_append, List.nodup_append']
      exact ⟨hs.nodup, List.nodup_singleton _, List.disjoint_singleton.mpr hnew⟩
    · rw [List.map_append, List.mem_append]
      exact or_congr_right List.mem_singleton

theorem LogFacts.foldl {sessionId : ℤ} (events : List BreachEvent)
    (hid : ∀ event ∈ events, config.sessionId event.ts = sessionId) {s : PropFirmComplianceActor}
    (hs : LogFacts config s) :
    LogFacts config (events.foldl (PropFirmComplianceActor.recordBreach sessionId) s) ∧
      ∀ key, key ∈ (events.foldl (PropFirmComplianceActor.recordBreach sessionId) s).breaches.map
          (breachKey config) ↔
        key ∈ s.breaches.map (breachKey config) ∨ key ∈ events.map (breachKey config) := by
  induction events generalizing s with
  | nil => exact ⟨hs, fun key => (or_iff_left List.not_mem_nil).symm⟩
  | cons event events ih =>
    obtain ⟨hone, hkeys⟩ := hs.recordBreach (hid event List.mem_cons_self)
    obtain ⟨hrest, hmem⟩ := ih (fun e he => hid e (List.mem_cons_of_mem event he)) hone
    refine ⟨hrest, fun key => ?_⟩
    rw [List.foldl_cons, hmem, hkeys, List.map_cons, List.mem_cons, or_assoc]

/-- The events of a bar are the rules that block there. -/
theorem mem_evaluateCompliance {accountState : Dict} {ts : ℤ} (key : ℤ × String) :
    key ∈ (PropFirmComplianceActor.evaluateCompliance config engine accountState ts).map
        (breachKey config) ↔
      config.sessionId ts = key.1 ∧ ∃ rule,
        engine.Blocks (PropFirmComplianceActor.context config accountState ts) rule ∧
          rule.name = key.2 := by
  obtain ⟨session, name⟩ := key
  simp only [PropFirmComplianceActor.evaluateCompliance, List.map_map, List.mem_map,
    List.mem_filter, decide_eq_true_eq, Function.comp_apply, breachKey, Prod.exists,
    Prod.mk.injEq, ← RuleEngine.validate_reported_iff, RuleEngine.Reported]
  constructor
  · intro h
    obtain ⟨rule, result, ⟨hmem, hblock⟩, hsession, hname⟩ := h
    exact ⟨hsession, rule, ⟨result, hmem, hblock⟩, hname⟩
  · intro h
    obtain ⟨hsession, rule, ⟨result, hmem, hblock⟩, hname⟩ := h
    exact ⟨rule, result, ⟨hmem, hblock⟩, hsession, hname⟩

/-- One bar later a rule blocked in a session if it did before, or does at
that bar. -/
theorem blockedIn_concat (bars : List (Bar × ℚ)) (m : Bar × ℚ) (session : ℤ × String) :
    BlockedIn config engine (bars ++ [m]) session ↔
      BlockedIn config engine bars session ∨ config.sessionId m.1.ts = session.1 ∧ ∃ rule,
        engine.Blocks (barContext config engine bars m.1 m.2) rule ∧ rule.name = session.2 :=
  exists_prefix_concat

/-- Reading a bar leaves the log and adds to the curve. -/
theorem observe_log (s : PropFirmComplianceActor) (bar : Bar) (equity : ℚ) :
    (s.observe bar equity).dedup = s.dedup ∧ (s.observe bar equity).breaches = s.breaches ∧
      (s.observe bar equity).equityCurve = s.equityCurve ++ [(bar.ts, equity)] := by
  unfold PropFirmComplianceActor.observe PropFirmComplianceActor.rollDay
  split
  · exact ⟨rfl, rfl, rfl⟩
  · split
    · exact ⟨rfl, rfl, rfl⟩
    · exact ⟨rfl, rfl, rfl⟩

/-- The log of a run, in any order of bars. -/
theorem log_of_run (config : PropFirmComplianceActorConfig) (engine : RuleEngine)
    (bars : List (Bar × ℚ)) :
    LogFacts config (actorState config engine (marks bars)) ∧
      ∀ session, session ∈ (actorState config engine (marks bars)).breaches.map (breachKey config) ↔
        BlockedIn config engine bars session := by
  induction bars using List.reverseRecOn with
  | nil =>
    refine ⟨⟨fun key => Iff.rfl, List.nodup_nil⟩, fun session => iff_of_false List.not_mem_nil ?_⟩
    intro ⟨before, bar, equity, hpre, _⟩
    exact not_prefix_concat_nil hpre
  | append_singleton bars m ih =>
    obtain ⟨bar, equity⟩ := m
    obtain ⟨hlog, hkeys⟩ := ih
    obtain ⟨hdedup, hbreaches, _⟩ := observe_log (actorState config engine (marks bars)) bar equity
    have hobserved : LogFacts config ((actorState config engine (marks bars)).observe bar equity) := by
      refine ⟨fun key => ?_, ?_⟩
      · rw [hdedup, hbreaches]
        exact hlog.dedup key
      · rw [hbreaches]
        exact hlog.nodup
    have hids : ∀ event ∈ PropFirmComplianceActor.evaluateCompliance config engine
        (((actorState config engine (marks bars)).observe bar equity).accountState config equity)
        bar.ts, config.sessionId event.ts = config.sessionId bar.ts := by
      intro event hmem
      obtain ⟨_, _, rfl⟩ := List.mem_map.mp hmem
      rfl
    obtain ⟨hnext, hmem⟩ := hobserved.foldl _ hids
    rw [actorState_marks_concat]
    refine ⟨hnext, fun session => (hmem session).trans ?_⟩
    rw [hbreaches, hkeys, mem_evaluateCompliance, blockedIn_concat]
    rfl

end Log

/-! ## The trading day -/

/-- **In a run of bars in order, the three pieces of state keep one trading
day each:** the rules see the change of the equity since the first bar of
the UTC date; the log has one entry for each session and rule that blocked
in it; each UTC date with a bar is recorded once, with its last change of
equity, and the last of them when the actor stops. -/
theorem tradingDay_of_run (config : PropFirmComplianceActorConfig) (engine : RuleEngine)
    (bars : List (Bar × ℚ)) (hord : InOrder bars) : TradingDay utcDate config engine bars := by
  have hdays := dayFacts_of_run config engine hord
  obtain ⟨hlog, hlogged⟩ := log_of_run config engine bars
  have hstop : ((actorState config engine (marks bars)).onStop.profitHistory.map Prod.fst).Nodup ∧
      ∀ day pnl, (day, pnl) ∈ (actorState config engine (marks bars)).onStop.profitHistory ↔
        dayProfit utcDate bars day = some pnl := by
    unfold PropFirmComplianceActor.onStop
    cases hday : (actorState config engine (marks bars)).currentDay with
    | none =>
      refine ⟨hdays.nodup, fun day pnl => ?_⟩
      show (day, pnl) ∈ (actorState config engine (marks bars)).profitHistory ↔ _
      rw [hdays.history, hday]
      exact and_iff_right (by simp)
    | some current =>
      dsimp only
      rw [hdays.record hday]
      exact ⟨hdays.record_nodup hday, hdays.mem_record hday⟩
  refine ⟨?_, hlog.nodup, hlogged, fun day pnl => ?_, hstop.1, hstop.2⟩
  · intro before bar equity hpre
    have hbefore : InOrder (before ++ [(bar, equity)]) := hord.sublist hpre.sublist
    have hfacts := (dayFacts_of_run config engine (List.pairwise_append.mp hbefore).1).observe hbefore
    have hopened := hfacts.opened _ (currentDay_observe ..)
    exact ⟨_, dayOpening_mono hpre hopened, rfl, rfl⟩
  · rw [hdays.history, hdays.current]
    refine and_congr_left fun hpnl => ?_
    obtain ⟨m, hm, hmday⟩ := dayProfit_isSome_iff.mp (Option.isSome_of_eq_some hpnl)
    obtain ⟨last, hlast⟩ : ∃ last, bars.getLast? = some last :=
      ⟨_, List.getLast?_eq_some_getLast (List.ne_nil_of_mem hm)⟩
    rw [hlast]
    constructor
    · intro hne
      have hle := InOrder.le_getLast hord hlast hm
      refine ⟨last, List.mem_of_getLast? hlast, lt_of_le_of_ne (hmday ▸ hle) ?_⟩
      intro heq
      exact hne (congrArg some heq.symm)
    · intro ⟨b, hb, hlt⟩ heq
      have hle := InOrder.le_getLast hord hlast hb
      have hday : utcDate last.1.ts = day := Option.some.inj heq
      omega

/-- By session id and by UTC date the days of a run open alike at each bar,
and make the same. -/
structure DaysAgree (config : PropFirmComplianceActorConfig) (bars : List (Bar × ℚ)) : Prop where
  opening : ∀ m ∈ bars,
    dayOpening config.sessionId bars (config.sessionId m.1.ts) =
      dayOpening utcDate bars (utcDate m.1.ts)
  profit : ∀ day, dayProfit config.sessionId bars day = dayProfit utcDate bars day

section DaysAgree

variable {config : PropFirmComplianceActorConfig} {bars : List (Bar × ℚ)}

/-- They do when every bar lies in the session of its UTC date. -/
theorem daysAgree_of_eq (h : ∀ m ∈ bars, config.sessionId m.1.ts = utcDate m.1.ts) :
    DaysAgree config bars := by
  have hbars : ∀ day, dayBars config.sessionId bars day = dayBars utcDate bars day := by
    intro day
    unfold dayBars
    exact List.filter_congr fun m hm => by rw [h m hm]
  constructor
  · intro m hm
    rw [h m hm]
    unfold dayOpening
    rw [hbars]
  · intro day
    unfold dayProfit dayOpening dayClosing
    rw [hbars]

/-- Days that make the same are the same days. -/
theorem DaysAgree.later_iff (h : DaysAgree config bars) {day : ℤ} :
    (∃ m ∈ bars, day < config.sessionId m.1.ts) ↔ ∃ m ∈ bars, day < utcDate m.1.ts := by
  have hdays : ∀ d, (∃ m ∈ bars, config.sessionId m.1.ts = d) ↔ ∃ m ∈ bars, utcDate m.1.ts = d := by
    intro d
    rw [← dayProfit_isSome_iff, ← dayProfit_isSome_iff, h.profit]
  constructor
  · intro ⟨m, hm, hlt⟩
    obtain ⟨b, hb, hday⟩ := (hdays _).mp ⟨m, hm, rfl⟩
    exact ⟨b, hb, hday ▸ hlt⟩
  · intro ⟨m, hm, hlt⟩
    obtain ⟨b, hb, hday⟩ := (hdays _).mpr ⟨m, hm, rfl⟩
    exact ⟨b, hb, hday ▸ hlt⟩

/-- What the actor keeps by the UTC date it keeps by the session id. -/
theorem DaysAgree.tradingDay (h : DaysAgree config bars) {engine : RuleEngine}
    (hutc : TradingDay utcDate config engine bars) :
    TradingDay config.sessionId config engine bars where
  dailyPnl before bar equity hpre := by
    have hmem : (bar, equity) ∈ bars := hpre.subset (List.mem_append_right before (by simp))
    obtain ⟨opening, hopening, hpnl⟩ := hutc.dailyPnl before bar equity hpre
    exact ⟨opening, (h.opening _ hmem).trans hopening, hpnl⟩
  loggedOnce := hutc.loggedOnce
  logged := hutc.logged
  completed day pnl := by rw [hutc.completed, h.later_iff, h.profit]
  recordedOnce := hutc.recordedOnce
  recorded day pnl := by rw [hutc.recorded, h.profit]

theorem daysAgree_of_tradingDay {engine : RuleEngine} (hutc : TradingDay utcDate config engine bars)
    (h : TradingDay config.sessionId config engine bars) : DaysAgree config bars where
  opening m hm := by
    obtain ⟨before, rest, rfl⟩ := List.append_of_mem hm
    have hpre : before ++ [m] <+: before ++ m :: rest := ⟨rest, by simp⟩
    -- the rules see one daily P&L at the bar, so the two openings are one
    obtain ⟨opening, hopening, hpnl, -⟩ := h.dailyPnl before m.1 m.2 hpre
    obtain ⟨opening', hopening', hpnl', -⟩ := hutc.dailyPnl before m.1 m.2 hpre
    have heq : m.2 - opening = m.2 - opening' := by simpa using hpnl.symm.trans hpnl'
    rw [hopening, hopening', sub_right_injective heq]
  profit day := by
    ext pnl
    rw [← h.recorded, ← hutc.recorded]

end DaysAgree

/-- **In a run of bars in order the actor keeps the trading day of the UTC
date, and it keeps that of the session exactly when** by session id and by
UTC date the days of the run open alike at each bar and make the same. -/
theorem tradingDay_iff (config : PropFirmComplianceActorConfig) (engine : RuleEngine)
    (bars : List (Bar × ℚ)) (hord : InOrder bars) :
    TradingDay utcDate config engine bars ∧
      (TradingDay config.sessionId config engine bars ↔ DaysAgree config bars) := by
  have hutc := tradingDay_of_run config engine bars hord
  exact ⟨hutc, daysAgree_of_tradingDay hutc, fun h => h.tradingDay hutc⟩

/-- A session one hour east of UTC. -/
def hourEast : PropFirmComplianceActorConfig :=
  { accountId := "ftmo-001", initialBalance := 100000, sessionOffset := fun _ => 3600 }

/-- The noon of two days. -/
def twoNoons : List (Bar × ℚ) :=
  [({ tsInit := 43200000000000 }, 100000), ({ tsInit := 129600000000000 }, 94000)]

/-- At noon the session of an hour's offset has the UTC date. -/
theorem tradingDay_iff_noon : TradingDay hourEast.sessionId hourEast fiveEngine twoNoons :=
  (tradingDay_iff hourEast fiveEngine twoNoons (by unfold InOrder twoNoons; decide)).2.mpr
    (daysAgree_of_eq (by unfold twoNoons; decide +kernel))

/-- 22:30 and 23:30 of one UTC date. In the session's timezone the second
bar is the first one of the next day. -/
def aroundMidnight : List (Bar × ℚ) :=
  [({ tsInit := 81000000000000 }, 100000), ({ tsInit := 84600000000000 }, 94000)]

/-- The two bars lie in two sessions. The rules see the first session's
equity as the opening of the second, and one day is recorded for both. -/
theorem session_splits_day :
    InOrder aroundMidnight ∧
      ¬ TradingDay hourEast.sessionId hourEast fiveEngine aroundMidnight := by
  refine ⟨by unfold InOrder aroundMidnight; decide, fun h => ?_⟩
  obtain ⟨opening, hopening, hpnl, _⟩ :=
    h.dailyPnl [({ tsInit := 81000000000000 }, 100000)] { tsInit := 84600000000000 } 94000
      List.prefix_rfl
  have hown : dayOpening hourEast.sessionId aroundMidnight 1 = some 94000 := by decide +kernel
  have hseen : (barContext hourEast fiveEngine [({ tsInit := 81000000000000 }, 100000)]
      { tsInit := 84600000000000 } 94000).get? "daily_pnl" = some (.num (-6000)) := by
    decide +kernel
  obtain rfl := Option.some.inj (hown.symm.trans hopening)
  have heq := hseen.symm.trans hpnl
  revert heq
  decide +kernel

end TdSandboxed
